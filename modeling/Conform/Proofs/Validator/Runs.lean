import Conform.Proofs.Schema.Runs
import Conform.Proofs.Validator.Compilation

/-!
Compiling as runs: building the nodes below the root, collecting keys and rendering on the way, and
the search for cycles at the end. There is a run for each of them on every schema, also on those
that compiling goes on to refuse, and what the run gives is what compiling computes.
-/

namespace Conform

namespace Schema

variable {schema : Schema}

/-! Building. -/

/-- Building goes through some handles after nodes have been `met`. It logs the nodes that it builds
and ends with those met in the end, or at a handle that refers to nothing. -/
inductive BuildRun (schema : Schema) :
    List NodeId → List NodeId → List NodeId → Except BuildFault (List NodeId) → Prop
  | done {met : List NodeId} : BuildRun schema met [] [] (.ok met)
  | met {met waiting log : List NodeId} {id : NodeId} {result : Except BuildFault (List NodeId)}
      (again : id ∈ met) (rest : BuildRun schema met waiting log result) :
      BuildRun schema met (id :: waiting) log result
  | unknown {met waiting : List NodeId} {id : NodeId} (new : id ∉ met)
      (hnode : schema.node? id = none) :
      BuildRun schema met (id :: waiting) [] (.error (.unknownNode id))
  /-- A node counts as met before the nodes that it refers to are gone through. -/
  | built {met met' waiting inner outer : List NodeId} {id : NodeId} {node : Node}
      {result : Except BuildFault (List NodeId)} (new : id ∉ met)
      (hnode : schema.node? id = some node)
      (inside : BuildRun schema (met ++ [id]) node.children inner (.ok met'))
      (rest : BuildRun schema met' waiting outer result) :
      BuildRun schema met (id :: waiting) (id :: inner ++ outer) result
  | failed {met waiting inner : List NodeId} {id : NodeId} {node : Node} {fault : BuildFault}
      (new : id ∉ met) (hnode : schema.node? id = some node)
      (inside : BuildRun schema (met ++ [id]) node.children inner (.error fault)) :
      BuildRun schema met (id :: waiting) (id :: inner) (.error fault)

namespace BuildRun

variable {met met' waiting log : List NodeId} {result : Except BuildFault (List NodeId)}

theorem met_eq (run : schema.BuildRun met waiting log (.ok met')) : met' = met ++ log := by
  generalize hresult : Except.ok met' = result at run
  induction run generalizing met' with
  | done =>
      cases hresult
      exact (List.append_nil _).symm
  | met _ _ ih => exact ih hresult
  | unknown => cases hresult
  | built _ _ _ _ insideMet restMet =>
      rw [restMet hresult, insideMet rfl]
      simp
  | failed => cases hresult

theorem known (run : schema.BuildRun met waiting log result) :
    ∀ id ∈ log, ¬ schema.Dangling id := by
  induction run with
  | done => exact List.forall_mem_nil _
  | met _ _ ih => exact ih
  | unknown => exact List.forall_mem_nil _
  | built _ hnode _ _ insideKnown restKnown =>
      have here := not_dangling_of_node hnode
      exact List.forall_mem_append.mpr ⟨List.forall_mem_cons.mpr ⟨here, insideKnown⟩, restKnown⟩
  | failed _ hnode _ ih => exact List.forall_mem_cons.mpr ⟨not_dangling_of_node hnode, ih⟩

theorem fresh (run : schema.BuildRun met waiting log result) : Fresh met log := by
  induction run with
  | done => exact .nil
  | met _ _ ih => exact ih
  | unknown => exact .nil
  | built new _ inside _ insideFresh restFresh =>
      rw [inside.met_eq, List.append_assoc] at restFresh
      exact .nest new insideFresh restFresh
  | failed new _ _ ih =>
      have := Fresh.nest new ih .nil
      rwa [List.append_nil] at this

end BuildRun

theorem exists_buildRun (schema : Schema) (met waiting : List NodeId) :
    ∃ log result, schema.BuildRun met waiting log result := by
  match waiting with
  | [] => exact ⟨[], .ok met, .done⟩
  | id :: waiting =>
      by_cases again : id ∈ met
      · obtain ⟨log, result, run⟩ := exists_buildRun schema met waiting
        exact ⟨log, result, .met again run⟩
      · cases hnode : schema.node? id with
        | none => exact ⟨[], _, .unknown again hnode⟩
        | some node =>
            obtain ⟨inner, result, inside⟩ := exists_buildRun schema (met ++ [id]) node.children
            cases result with
            | error fault => exact ⟨id :: inner, _, .failed again hnode inside⟩
            | ok met' =>
                have grown := inside.met_eq
                obtain ⟨outer, result, rest⟩ := exists_buildRun schema met' waiting
                exact ⟨_, result, .built again hnode inside rest⟩
termination_by (schema.unvisited met, waiting.length)
decreasing_by
  · exact Prod.Lex.right _ (Nat.lt_succ_self _)
  · exact Prod.Lex.left _ _ (unvisited_append_lt hnode again)
  · rw [grown]
    exact Prod.Lex.left _ _ (unvisited_lt hnode again (by simp) (by simp))

def originsOf {before : Builder} {α : Type} (result : Except BuildFault (before.Grown α)) :
    Except BuildFault (List NodeId) :=
  result.map (·.1.2.origins)

theorem originsOf_map {before : Builder} {α β : Type} {result : Except BuildFault (before.Grown α)}
    {f : α → β} : originsOf (result.map (Builder.Grown.map f)) = originsOf result := by
  cases result <;> rfl

theorem originsOf_slotsFor_cons (builder : Builder) (id : NodeId) (rest : List NodeId) :
    originsOf (schema.slotsFor builder (id :: rest)) =
      (schema.slotFor builder id).bind fun first => originsOf (schema.slotsFor first.1.2 rest) := by
  rw [slotsFor_cons]
  cases schema.slotFor builder id with
  | error fault => rfl
  | ok first =>
      simp only [Except.bind]
      cases schema.slotsFor first.1.2 rest <;> rfl

theorem originsOf_slotsFor_singleton (builder : Builder) (id : NodeId) :
    originsOf (schema.slotsFor builder [id]) = originsOf (schema.slotFor builder id) := by
  rw [originsOf_slotsFor_cons]
  cases schema.slotFor builder id with
  | error fault => rfl
  | ok first =>
      simp only [Except.bind, slotsFor]
      rfl

theorem originsOf_build (builder : Builder) (id : NodeId) (node : Node) :
    originsOf (schema.build builder id node) =
      originsOf (schema.slotsFor builder node.children) := by
  cases node with
  | valueType kind =>
      rw [build, Node.children, slotsFor]
      rfl
  | literal value =>
      rw [build, Node.children, slotsFor]
      rfl
  | enum name values =>
      rw [build, Node.children, slotsFor]
      rfl
  | array element =>
      rw [build, originsOf_map]
      exact (originsOf_slotsFor_singleton builder element).symm
  | tuple elements =>
      rw [build, originsOf_map]
      rfl
  | union members =>
      rw [build, originsOf_map]
      rfl
  | intersection members =>
      rw [build, originsOf_map]
      rfl
  | object name properties =>
      rw [build, originsOf_map]
      rfl

theorem originsOf_slotFor_of_new {builder : Builder} {id : NodeId} {node : Node}
    (new : builder.slot? id = none) (hnode : schema.node? id = some node) :
    originsOf (schema.slotFor builder id) =
      originsOf (schema.slotsFor (builder.reserve id) node.children) := by
  rw [slotFor_of_new new hnode, ← originsOf_build (builder.reserve id) id node]
  cases schema.build (builder.reserve id) id node <;> rfl

/-- A run meets what the builder meets, and it stops where the builder stops. -/
theorem BuildRun.originsOf_slotsFor {met waiting log : List NodeId}
    {result : Except BuildFault (List NodeId)} (run : schema.BuildRun met waiting log result)
    {builder : Builder} (hmet : builder.origins = met) :
    originsOf (schema.slotsFor builder waiting) = result := by
  induction run generalizing builder with
  | done =>
      rw [slotsFor, ← hmet]
      rfl
  | @met _ _ _ id _ again _ ih =>
      obtain ⟨slot, hslot⟩ : ∃ slot, builder.slot? id = some slot :=
        Option.isSome_iff_exists.mp (List.isSome_idxOf?.mpr (hmet ▸ again))
      rw [originsOf_slotsFor_cons, slotFor_of_met hslot]
      exact ih hmet
  | unknown new hnode =>
      have unmet := List.idxOf?_eq_none_iff.mpr (hmet ▸ new)
      rw [originsOf_slotsFor_cons, slotFor_of_dangling unmet hnode]
      rfl
  | built new hnode _ _ insideMet restMet =>
      have unmet := List.idxOf?_eq_none_iff.mpr (hmet ▸ new)
      have below := originsOf_slotFor_of_new unmet hnode
      rw [insideMet (congrArg (· ++ [_]) hmet)] at below
      obtain ⟨first, hfirst, horigins⟩ := exists_of_map_eq_ok below
      rw [originsOf_slotsFor_cons, hfirst]
      exact restMet horigins
  | failed new hnode _ insideMet =>
      have unmet := List.idxOf?_eq_none_iff.mpr (hmet ▸ new)
      have below := originsOf_slotFor_of_new unmet hnode
      rw [insideMet (congrArg (· ++ [_]) hmet)] at below
      rw [originsOf_slotsFor_cons, map_eq_error_iff.mp below]
      rfl

end Schema

namespace Arena

variable {arena : Arena}

/-! The search for cycles. -/

/-- The search goes through some slots while those that are `active` lead there. It logs the slots
whose members it goes through, and it ends with those that are done in the end, or at the node of a
slot that leads back to itself. There is no rule for a slot outside the arena. -/
inductive SearchRun (arena : Arena) :
    List Slot → List Slot → List Slot → List Slot → Except NodeId (List Slot) → Prop
  | done {active done : List Slot} : SearchRun arena active done [] [] (.ok done)
  | active {active done waiting : List Slot} {slot : Slot} {origin : NodeId} {check : Check}
      (hslot : arena[slot]? = some (origin, check)) (hactive : slot ∈ active) :
      SearchRun arena active done (slot :: waiting) [] (.error origin)
  | passed {active done waiting log : List Slot} {slot : Slot} {entry : NodeId × Check}
      {result : Except NodeId (List Slot)} (hslot : arena[slot]? = some entry)
      (inactive : slot ∉ active) (hdone : slot ∈ done)
      (rest : SearchRun arena active done waiting log result) :
      SearchRun arena active done (slot :: waiting) log result
  /-- A slot is active while its members are gone through, and done afterwards. -/
  | expanded {active done done' waiting inner outer : List Slot} {slot : Slot} {origin : NodeId}
      {check : Check} {result : Except NodeId (List Slot)}
      (hslot : arena[slot]? = some (origin, check)) (inactive : slot ∉ active)
      (new : slot ∉ done)
      (inside : SearchRun arena (slot :: active) done check.combined inner (.ok done'))
      (rest : SearchRun arena active (slot :: done') waiting outer result) :
      SearchRun arena active done (slot :: waiting) (slot :: inner ++ outer) result
  | found {active done waiting inner : List Slot} {slot : Slot} {origin culprit : NodeId}
      {check : Check} (hslot : arena[slot]? = some (origin, check)) (inactive : slot ∉ active)
      (new : slot ∉ done)
      (inside : SearchRun arena (slot :: active) done check.combined inner (.error culprit)) :
      SearchRun arena active done (slot :: waiting) (slot :: inner) (.error culprit)

namespace SearchRun

variable {active done done' waiting log : List Slot} {result : Except NodeId (List Slot)}

theorem subset_done (run : arena.SearchRun active done waiting log (.ok done')) :
    done ⊆ done' ∧ log ⊆ done' := by
  generalize hresult : Except.ok done' = result at run
  induction run generalizing done' with
  | done =>
      cases hresult
      exact ⟨List.Subset.refl _, List.nil_subset _⟩
  | active => cases hresult
  | passed _ _ _ _ ih => exact ih hresult
  | expanded _ _ _ _ _ insideDone restDone =>
      obtain ⟨keeps, logged⟩ := insideDone rfl
      obtain ⟨keepsRest, loggedRest⟩ := restDone hresult
      obtain ⟨here, later⟩ := List.cons_subset.mp keepsRest
      have loggedInside := List.cons_subset.mpr ⟨here, List.Subset.trans logged later⟩
      exact ⟨List.Subset.trans keeps later, List.append_subset.mpr ⟨loggedInside, loggedRest⟩⟩
  | found => cases hresult

theorem fresh (run : arena.SearchRun active done waiting log result) :
    Fresh (active ++ done) log := by
  induction run with
  | done => exact .nil
  | active => exact .nil
  | passed _ _ _ _ ih => exact ih
  | expanded _ inactive new inside _ insideFresh restFresh =>
      obtain ⟨keeps, logged⟩ := inside.subset_done
      refine .nest (by simp [inactive, new]) (insideFresh.of_subset ?_) (restFresh.of_subset ?_)
      · grind
      · grind
  | @found active done _ inner slot _ _ _ _ inactive new _ ih =>
      have insideFresh : Fresh (active ++ done ++ [slot]) inner := ih.of_subset (by grind)
      have := Fresh.nest (by simp [inactive, new]) insideFresh .nil
      rwa [List.append_nil] at this

theorem lt_length (run : arena.SearchRun active done waiting log result) :
    ∀ slot ∈ log, slot < arena.length := by
  induction run with
  | done => exact List.forall_mem_nil _
  | active => exact List.forall_mem_nil _
  | passed _ _ _ _ ih => exact ih
  | expanded hslot _ _ _ _ insideLt restLt =>
      have here := (List.getElem?_eq_some_iff.mp hslot).1
      exact List.forall_mem_append.mpr ⟨List.forall_mem_cons.mpr ⟨here, insideLt⟩, restLt⟩
  | found hslot _ _ _ ih =>
      exact List.forall_mem_cons.mpr ⟨(List.getElem?_eq_some_iff.mp hslot).1, ih⟩

theorem foldlM_searchCycle (run : arena.SearchRun active done waiting log result) :
    waiting.foldlM (arena.searchCycle active) done = result := by
  induction run with
  | done => rfl
  | active hslot hactive =>
      rw [List.foldlM_cons, searchCycle_of_active hslot hactive]
      rfl
  | @passed _ _ _ _ _ entry _ hslot inactive hdone _ ih =>
      have here : arena[_]? = some (entry.1, entry.2) := hslot
      rw [List.foldlM_cons, searchCycle_of_done here inactive hdone]
      exact ih
  | expanded hslot inactive new _ _ insideSame ih =>
      rw [List.foldlM_cons, searchCycle_of_new hslot inactive new, insideSame]
      exact ih
  | found hslot inactive new _ insideSame =>
      rw [List.foldlM_cons, searchCycle_of_new hslot inactive new, insideSame]
      rfl

end SearchRun

def IsClosed (arena : Arena) : Prop :=
  ∀ (slot : Slot) (origin : NodeId) (check : Check), arena[slot]? = some (origin, check) →
    ∀ m ∈ check.combined, m < arena.length

theorem exists_searchRun (closed : arena.IsClosed) (active done waiting : List Slot)
    (inside : ∀ slot ∈ waiting, slot < arena.length) :
    ∃ log result, arena.SearchRun active done waiting log result := by
  match waiting with
  | [] => exact ⟨[], .ok done, .done⟩
  | slot :: waiting =>
      obtain ⟨here, later⟩ := List.forall_mem_cons.mp inside
      obtain ⟨⟨origin, check⟩, hslot⟩ : ∃ entry, arena[slot]? = some entry :=
        ⟨_, List.getElem?_eq_getElem here⟩
      by_cases hactive : slot ∈ active
      · exact ⟨[], _, .active hslot hactive⟩
      · by_cases hdone : slot ∈ done
        · obtain ⟨log, result, rest⟩ := exists_searchRun closed active done waiting later
          exact ⟨log, result, .passed hslot hactive hdone rest⟩
        · obtain ⟨inner, result, below⟩ := exists_searchRun closed (slot :: active) done
            check.combined (closed slot origin check hslot)
          cases result with
          | error culprit => exact ⟨slot :: inner, _, .found hslot hactive hdone below⟩
          | ok done' =>
              obtain ⟨outer, result, rest⟩ :=
                exists_searchRun closed active (slot :: done') waiting later
              exact ⟨_, result, .expanded hslot hactive hdone below rest⟩
termination_by (arena.unvisited active, waiting.length)
decreasing_by
  · exact Prod.Lex.right _ (Nat.lt_succ_self _)
  · exact Prod.Lex.left _ _ (unvisited_cons_lt hslot hactive)
  · exact Prod.Lex.right _ (Nat.lt_succ_self _)

end Arena

namespace Schema

variable {schema : Schema}

theorem isClosed_images (closed : schema.Closed) : schema.images.IsClosed := by
  intro slot origin check hslot m hm
  obtain ⟨node, horigin, hnode, hcheck⟩ := exists_of_getElem?_images closed hslot
  rw [show check = _ from hcheck, combined_ofNode] at hm
  obtain ⟨child, hchild, rfl⟩ := List.mem_map.mp hm
  have reached : schema.Reachable child :=
    (mem_preorder_iff.mp (List.mem_of_getElem? horigin)).child
      (refers_of_node hnode (node.combined_subset_children hchild))
  obtain ⟨childNode, hchildNode⟩ := Option.ne_none_iff_exists'.mp (closed child reached)
  have image := getElem?_images_eq_some closed (getElem?_preorder_idxOf reached) hchildNode
  exact (List.getElem?_eq_some_iff.mp image).1

theorem resolve_slotFor_root {built : Builder.empty.Grown Slot}
    (hbuilt : schema.slotFor .empty schema.root = .ok built) :
    schema.Closed ∧ built.1.2.resolve = .ok schema.images := by
  rcases schema.slotFor_root with ⟨id, -, failed⟩ | ⟨known, result, run, -, hresolve⟩
  · cases failed.symm.trans hbuilt
  · obtain rfl := Except.ok.inj (run.symm.trans hbuilt)
    exact ⟨firstDangling?_eq_none_iff.mp known, hresolve⟩

theorem BuildRun.builds_once {log : List NodeId} {result : Except BuildFault (List NodeId)}
    (run : schema.BuildRun [] [schema.root] log result) :
    schema.Frugal log ∧ log.length ≤ schema.nodes.length ∧
      originsOf (schema.slotFor .empty schema.root) = result := by
  have frugal : schema.Frugal log := ⟨run.fresh.nodup, run.known⟩
  refine ⟨frugal, frugal.length_le, ?_⟩
  rw [← originsOf_slotsFor_singleton, run.originsOf_slotsFor rfl]

theorem CollectRun.enters_once {id : NodeId} {members log : List NodeId} {keys : List String}
    (hnode : schema.node? id = some (.intersection members))
    (run : schema.CollectRun [id] members log [] keys) :
    schema.Frugal (id :: log) ∧ log.length < schema.nodes.length ∧
      schema.declaredKeys id members = keys := by
  have frugal : schema.Frugal (id :: log) :=
    ⟨run.fresh.append (List.nodup_singleton id),
      List.forall_mem_cons.mpr ⟨not_dangling_of_node hnode, run.known⟩⟩
  exact ⟨frugal, frugal.length_le, run.declaredKeys_eq⟩

theorem RenderRun.opens_once {id : NodeId} {log : List (List NodeId)} {texts : List String}
    (run : schema.RenderRun [] [id] log texts) :
    (∀ opened ∈ log, schema.Frugal opened ∧ opened.length ≤ schema.nodes.length) ∧
      texts = [schema.render id] := by
  have frugal := run.frugal ⟨List.nodup_nil, List.forall_mem_nil _⟩
  exact ⟨fun opened hopened => ⟨frugal opened hopened, (frugal opened hopened).length_le⟩,
    run.texts_eq⟩

theorem SearchRun.expands_once (closed : schema.Closed) {log : List Slot}
    {result : Except NodeId (List Slot)}
    (run : schema.images.SearchRun [] [] (List.range schema.images.length) log result) :
    log.Nodup ∧ (∀ slot ∈ log, slot < schema.images.length) ∧
      schema.images.searchCycles = result ∧
      (∀ id, result = .error id → schema.compile = .error (.combinatorCycle id)) ∧
      ∀ done, result = .ok done → ∃ validator, schema.compile = .ok validator := by
  have search : schema.images.searchCycles = result := run.foldlM_searchCycle
  refine ⟨run.fresh.nodup, run.lt_length, search, ?_, ?_⟩
  · rintro id rfl
    exact compile_eq_combinatorCycle_iff.mpr ⟨closed, search⟩
  · rintro done rfl
    exact exists_validator_iff_searchCycles.mpr ⟨closed, done, search⟩

/-- The walks of compiling come to an end on every schema. Building goes through the root in a
finite run that builds each node at most once. Below every intersection the keys are collected in a
finite run that enters each union or intersection at most once. Every handle is rendered in a finite
run in which no node is open twice at a time. The search for cycles is a finite run on slots of the
arena that goes through the members of each at most once. All of them compute what compiling does,
which ends with the search. -/
theorem compiling_terminates (schema : Schema) :
    ((∃ log result, schema.BuildRun [] [schema.root] log result) ∧
      ∀ log result, schema.BuildRun [] [schema.root] log result →
        schema.Frugal log ∧ log.length ≤ schema.nodes.length ∧
        originsOf (schema.slotFor .empty schema.root) = result) ∧
    (∀ id members, schema.node? id = some (.intersection members) →
      (∃ log keys, schema.CollectRun [id] members log [] keys) ∧
      ∀ log keys, schema.CollectRun [id] members log [] keys →
        schema.Frugal (id :: log) ∧ log.length < schema.nodes.length ∧
        schema.declaredKeys id members = keys) ∧
    (∀ id, (∃ log texts, schema.RenderRun [] [id] log texts) ∧
      ∀ log texts, schema.RenderRun [] [id] log texts →
        (∀ opened ∈ log, schema.Frugal opened ∧ opened.length ≤ schema.nodes.length) ∧
        texts = [schema.render id]) ∧
    (∀ fault, schema.slotFor .empty schema.root = .error fault → schema.compile = .error fault) ∧
    ∀ built, schema.slotFor .empty schema.root = .ok built →
      ∃ arena, built.1.2.resolve = .ok arena ∧
      (∃ log result, arena.SearchRun [] [] (List.range arena.length) log result) ∧
      ∀ log result, arena.SearchRun [] [] (List.range arena.length) log result →
        log.Nodup ∧ (∀ slot ∈ log, slot < arena.length) ∧ arena.searchCycles = result ∧
        (∀ id, result = .error id → schema.compile = .error (.combinatorCycle id)) ∧
        ∀ done, result = .ok done → ∃ validator, schema.compile = .ok validator := by
  refine ⟨⟨schema.exists_buildRun [] [schema.root], fun _ _ run => run.builds_once⟩,
    fun id members hnode => ⟨schema.exists_collectRun [id] members [], fun _ _ run => ?_⟩,
    fun id => ⟨?_, fun _ _ run => run.opens_once⟩, fun fault failed => ?_, fun built hbuilt => ?_⟩
  · exact run.enters_once hnode
  · obtain ⟨log, run⟩ := schema.exists_renderRun [] [id]
    exact ⟨log, _, run⟩
  · rw [compile, failed]
    rfl
  · obtain ⟨closed, hresolve⟩ := resolve_slotFor_root hbuilt
    have inside : ∀ slot ∈ List.range schema.images.length, slot < schema.images.length :=
      fun slot hslot => List.mem_range.mp hslot
    exact ⟨schema.images, hresolve, Arena.exists_searchRun (isClosed_images closed) [] [] _ inside,
      fun _ _ run => SearchRun.expands_once closed run⟩

end Schema
end Conform
