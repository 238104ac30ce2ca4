import Conform.Proofs.Schema.DeclaredKeys
import Conform.Proofs.Schema.Rendering
import Mathlib.Data.List.Nodup
import Mathlib.Data.List.Perm.Subperm

/-!
Collecting keys and rendering as runs. A run is made by one rule for each case that the recursion
tells apart, and it logs what the recursion enters. Runs are finite, so a walk comes to an end if
there is a run for it; no rule asks for anything to be smaller than before.
-/

namespace Conform

/-- What a walk logs after having seen some things: none of those, and nothing twice. -/
structure Fresh {α : Type} (seen log : List α) : Prop where
  nodup : log.Nodup
  unseen : ∀ x ∈ log, x ∉ seen

namespace Fresh

variable {α : Type} {seen more log inner outer : List α} {x : α}

theorem nil : Fresh seen [] := ⟨List.nodup_nil, List.forall_mem_nil _⟩

theorem of_subset (fresh : Fresh more log) (h : seen ⊆ more) : Fresh seen log :=
  ⟨fresh.nodup, fun y hy hseen => fresh.unseen y hy (h hseen)⟩

theorem nest (new : x ∉ seen) (inside : Fresh (seen ++ [x]) inner)
    (rest : Fresh (seen ++ x :: inner) outer) : Fresh seen (x :: inner ++ outer) := by
  have notInner : x ∉ inner := fun h => inside.unseen x h (by simp)
  have notOuter : ∀ y ∈ x :: inner, y ∉ outer := fun y hy h => rest.unseen y h (by simp [hy])
  constructor
  · rw [List.nodup_append]
    refine ⟨List.nodup_cons.mpr ⟨notInner, inside.nodup⟩, rest.nodup, ?_⟩
    rintro y hy _ hz rfl
    exact notOuter y hy hz
  · intro y hy
    rcases List.mem_append.mp hy with hy | hy
    · rcases List.mem_cons.mp hy with rfl | hy
      · exact new
      · exact fun h => inside.unseen y hy (List.mem_append_left _ h)
    · exact fun h => rest.unseen y hy (List.mem_append_left _ h)

theorem append (nodup : seen.Nodup) (fresh : Fresh seen log) : (seen ++ log).Nodup := by
  rw [List.nodup_append]
  refine ⟨nodup, fresh.nodup, ?_⟩
  rintro y hy _ hz rfl
  exact fresh.unseen y hz hy

end Fresh

namespace Schema

variable {schema : Schema} {ids : List NodeId}

structure Frugal (schema : Schema) (ids : List NodeId) : Prop where
  nodup : ids.Nodup
  known : ∀ id ∈ ids, ¬ schema.Dangling id

theorem Frugal.length_le (frugal : schema.Frugal ids) : ids.length ≤ schema.nodes.length := by
  have injective : Function.Injective NodeId.index := fun a b h => by
    cases a
    cases b
    exact congrArg NodeId.mk h
  have inside : ids.map NodeId.index ⊆ List.range schema.nodes.length := by
    intro i hi
    obtain ⟨id, hid, rfl⟩ := List.mem_map.mp hi
    obtain ⟨node, hnode⟩ := Option.ne_none_iff_exists'.mp (frugal.known id hid)
    exact List.mem_range.mpr (index_lt_of_node?_eq_some hnode)
  have := ((frugal.nodup.map injective).subperm inside).length_le
  rwa [List.length_map, List.length_range] at this

theorem not_dangling_of_node {id : NodeId} {node : Node} (hnode : schema.node? id = some node) :
    ¬ schema.Dangling id := by
  simp [Dangling, hnode]

/-! Collecting the keys below an intersection. -/

/-- Collecting goes through some nodes after having `seen` others. It logs the unions and
intersections that it enters and leads from the keys before to those after. -/
inductive CollectRun (schema : Schema) :
    List NodeId → List NodeId → List NodeId → List String → List String → Prop
  | done {seen : List NodeId} {keys : List String} : CollectRun schema seen [] [] keys keys
  | object {seen waiting log : List NodeId} {id : NodeId} {name : String}
      {properties : List (String × Property)} {keys keys' : List String}
      (hnode : schema.node? id = some (.object name properties))
      (rest : CollectRun schema seen waiting log (addKeys keys properties) keys') :
      CollectRun schema seen (id :: waiting) log keys keys'
  /-- A union or an intersection counts as seen before its members are gone through. -/
  | entered {seen waiting members inner outer : List NodeId} {id : NodeId}
      {keys keys' keys'' : List String}
      (hnode : schema.node? id = some (.union members) ∨
        schema.node? id = some (.intersection members)) (new : id ∉ seen)
      (inside : CollectRun schema (seen ++ [id]) members inner keys keys')
      (rest : CollectRun schema (seen ++ id :: inner) waiting outer keys' keys'') :
      CollectRun schema seen (id :: waiting) (id :: inner ++ outer) keys keys''
  | passed {seen waiting members log : List NodeId} {id : NodeId} {keys keys' : List String}
      (hnode : schema.node? id = some (.union members) ∨
        schema.node? id = some (.intersection members)) (again : id ∈ seen)
      (rest : CollectRun schema seen waiting log keys keys') :
      CollectRun schema seen (id :: waiting) log keys keys'
  | other {seen waiting log : List NodeId} {id : NodeId} {keys keys' : List String}
      (hobject : ∀ name properties, schema.node? id ≠ some (.object name properties))
      (hunion : ∀ members, schema.node? id ≠ some (.union members))
      (hintersection : ∀ members, schema.node? id ≠ some (.intersection members))
      (rest : CollectRun schema seen waiting log keys keys') :
      CollectRun schema seen (id :: waiting) log keys keys'

/-- Each union or intersection that is entered lowers what is not seen yet. -/
theorem exists_collectRun (schema : Schema) (seen waiting : List NodeId) (keys : List String) :
    ∃ log keys', schema.CollectRun seen waiting log keys keys' := by
  match waiting with
  | [] => exact ⟨[], keys, .done⟩
  | id :: waiting =>
      have combinator : ∀ members, schema.node? id = some (.union members) ∨
          schema.node? id = some (.intersection members) →
          ∃ log keys', schema.CollectRun seen (id :: waiting) log keys keys' := by
        intro members hnode
        by_cases again : id ∈ seen
        · obtain ⟨log, keys', run⟩ := exists_collectRun schema seen waiting keys
          exact ⟨log, keys', .passed hnode again run⟩
        · obtain ⟨inner, keys', inside⟩ := exists_collectRun schema (seen ++ [id]) members keys
          obtain ⟨outer, keys'', rest⟩ :=
            exists_collectRun schema (seen ++ id :: inner) waiting keys'
          exact ⟨_, keys'', .entered hnode again inside rest⟩
      have other : (∀ name properties, schema.node? id ≠ some (.object name properties)) →
          (∀ members, schema.node? id ≠ some (.union members)) →
          (∀ members, schema.node? id ≠ some (.intersection members)) →
          ∃ log keys', schema.CollectRun seen (id :: waiting) log keys keys' := by
        intro hobject hunion hintersection
        obtain ⟨log, keys', run⟩ := exists_collectRun schema seen waiting keys
        exact ⟨log, keys', .other hobject hunion hintersection run⟩
      cases hnode : schema.node? id with
      | none => exact other (by simp [hnode]) (by simp [hnode]) (by simp [hnode])
      | some node =>
          cases node with
          | object name properties =>
              obtain ⟨log, keys', run⟩ :=
                exists_collectRun schema seen waiting (addKeys keys properties)
              exact ⟨log, keys', .object hnode run⟩
          | union members => exact combinator members (.inl hnode)
          | intersection members => exact combinator members (.inr hnode)
          | _ => exact other (by simp [hnode]) (by simp [hnode]) (by simp [hnode])
termination_by (schema.unvisited seen, waiting.length)
decreasing_by
  · exact Prod.Lex.right _ (Nat.lt_succ_self _)
  · obtain ⟨node, hnode⟩ : ∃ node, schema.node? id = some node := hnode.elim (⟨_, ·⟩) (⟨_, ·⟩)
    exact Prod.Lex.left _ _ (unvisited_append_lt hnode again)
  · obtain ⟨node, hnode⟩ : ∃ node, schema.node? id = some node := hnode.elim (⟨_, ·⟩) (⟨_, ·⟩)
    exact Prod.Lex.left _ _ (unvisited_lt hnode again (by simp) (by simp))
  all_goals exact Prod.Lex.right _ (Nat.lt_succ_self _)

namespace CollectRun

variable {seen waiting log : List NodeId} {keys keys' : List String}

theorem known (run : schema.CollectRun seen waiting log keys keys') :
    ∀ id ∈ log, ¬ schema.Dangling id := by
  induction run with
  | done => exact List.forall_mem_nil _
  | entered hnode _ _ _ insideKnown restKnown =>
      have here := hnode.elim not_dangling_of_node not_dangling_of_node
      exact List.forall_mem_append.mpr ⟨List.forall_mem_cons.mpr ⟨here, insideKnown⟩, restKnown⟩
  | object _ _ ih => exact ih
  | passed _ _ _ ih => exact ih
  | other _ _ _ _ ih => exact ih

theorem fresh (run : schema.CollectRun seen waiting log keys keys') : Fresh seen log := by
  induction run with
  | done => exact .nil
  | entered _ new _ _ insideFresh restFresh => exact .nest new insideFresh restFresh
  | object _ _ ih => exact ih
  | passed _ _ _ ih => exact ih
  | other _ _ _ _ ih => exact ih

end CollectRun

theorem collectKeys_congr {keys : List String} {waiting entered entered' : List NodeId}
    (same : ∀ id, id ∈ entered ↔ id ∈ entered') :
    schema.collectKeys keys entered waiting = schema.collectKeys keys entered' waiting := by
  fun_induction collectKeys schema keys entered waiting generalizing entered' with
  | case1 keys entered => exact collectKeys_nil.symm
  | case2 keys entered member waiting name properties hnode ih =>
      rw [collectKeys_of_object hnode, ih same]
  | case3 keys entered member waiting members hnode hentered ih =>
      rw [collectKeys_of_entered ((same _).mp hentered) (.inl hnode), ih same]
  | case4 keys entered member waiting members hnode hentered ih =>
      rw [collectKeys_of_combinator (mt (same _).mpr hentered) (.inl hnode)]
      exact ih fun id => by rw [List.mem_cons, List.mem_cons, same]
  | case5 keys entered member waiting members hnode hentered ih =>
      rw [collectKeys_of_entered ((same _).mp hentered) (.inr hnode), ih same]
  | case6 keys entered member waiting members hnode hentered ih =>
      rw [collectKeys_of_combinator (mt (same _).mpr hentered) (.inr hnode)]
      exact ih fun id => by rw [List.mem_cons, List.mem_cons, same]
  | case7 keys entered member waiting hobject hunion hintersection ih =>
      rw [collectKeys_of_other hobject hunion hintersection, ih same]

theorem CollectRun.collectKeys_append {seen waiting log : List NodeId} {keys keys' : List String}
    (run : schema.CollectRun seen waiting log keys keys') (later : List NodeId) :
    schema.collectKeys keys seen (waiting ++ later) =
      schema.collectKeys keys' (seen ++ log) later := by
  induction run generalizing later with
  | @done seen keys => rw [List.nil_append, List.append_nil]
  | object hnode _ ih => rw [List.cons_append, collectKeys_of_object hnode, ih]
  | @entered seen waiting members inner outer id keys keys' keys'' hnode new _ _ insideSame ih =>
      have latest : schema.collectKeys keys (id :: seen) (members ++ (waiting ++ later)) =
          schema.collectKeys keys (seen ++ [id]) (members ++ (waiting ++ later)) :=
        collectKeys_congr fun other => by simp [or_comm]
      rw [List.cons_append, collectKeys_of_combinator new hnode, latest, insideSame,
        List.append_assoc, List.singleton_append, ih, List.append_assoc, List.cons_append]
  | passed hnode again _ ih => rw [List.cons_append, collectKeys_of_entered again hnode, ih]
  | other hobject hunion hintersection _ ih =>
      rw [List.cons_append, collectKeys_of_other hobject hunion hintersection, ih]

theorem CollectRun.declaredKeys_eq {id : NodeId} {members log : List NodeId} {keys : List String}
    (run : schema.CollectRun [id] members log [] keys) : schema.declaredKeys id members = keys := by
  have whole := run.collectKeys_append []
  rwa [List.append_nil, collectKeys_nil] at whole

/-! Rendering. -/

/-- Rendering describes some nodes while those `opened` around them are being described. It logs
the nodes that are open each time that it opens another. -/
inductive RenderRun (schema : Schema) :
    List NodeId → List NodeId → List (List NodeId) → List String → Prop
  | done {opened : List NodeId} : RenderRun schema opened [] [] []
  | unknown {opened waiting : List NodeId} {log : List (List NodeId)} {texts : List String}
      {id : NodeId} (hnode : schema.node? id = none)
      (rest : RenderRun schema opened waiting log texts) :
      RenderRun schema opened (id :: waiting) log ("<unknown>" :: texts)
  | again {opened waiting : List NodeId} {log : List (List NodeId)} {texts : List String}
      {id : NodeId} {node : Node} (hnode : schema.node? id = some node) (hopened : id ∈ opened)
      (rest : RenderRun schema opened waiting log texts) :
      RenderRun schema opened (id :: waiting) log ("..." :: texts)
  | opened {opened waiting : List NodeId} {inner outer : List (List NodeId)} {texts : List String}
      {id : NodeId} {node : Node} {text : NodeId → String}
      (hnode : schema.node? id = some node) (new : id ∉ opened)
      (inside : RenderRun schema (id :: opened) node.shown inner (node.shown.map text))
      (rest : RenderRun schema opened waiting outer texts) :
      RenderRun schema opened (id :: waiting) ((id :: opened) :: inner ++ outer)
        (node.describe text :: texts)

theorem exists_renderRun (schema : Schema) (opened waiting : List NodeId) :
    ∃ log, schema.RenderRun opened waiting log
      (waiting.map (schema.renderWithin opened)) := by
  match waiting with
  | [] => exact ⟨[], .done⟩
  | id :: waiting =>
      obtain ⟨outer, rest⟩ := exists_renderRun schema opened waiting
      rw [List.map_cons]
      cases hnode : schema.node? id with
      | none =>
          rw [renderWithin_of_dangling hnode]
          exact ⟨outer, .unknown hnode rest⟩
      | some node =>
          by_cases hopened : id ∈ opened
          · rw [renderWithin_of_mem hnode hopened]
            exact ⟨outer, .again hnode hopened rest⟩
          · obtain ⟨inner, inside⟩ := exists_renderRun schema (id :: opened) node.shown
            rw [renderWithin_of_notMem hnode hopened]
            exact ⟨_, .opened hnode hopened inside rest⟩
termination_by (schema.unvisited opened, waiting.length)
decreasing_by
  · exact Prod.Lex.right _ (Nat.lt_succ_self _)
  · exact Prod.Lex.left _ _ (unvisited_cons_lt hnode hopened)

namespace RenderRun

variable {opened waiting : List NodeId} {log : List (List NodeId)} {texts : List String}

theorem frugal (run : schema.RenderRun opened waiting log texts)
    (frugal : schema.Frugal opened) : ∀ nodes ∈ log, schema.Frugal nodes := by
  induction run with
  | done => exact List.forall_mem_nil _
  | unknown _ _ ih => exact ih frugal
  | again _ _ _ ih => exact ih frugal
  | opened hnode new _ _ insideFrugal restFrugal =>
      have wider := Frugal.mk (List.nodup_cons.mpr ⟨new, frugal.nodup⟩)
        (List.forall_mem_cons.mpr ⟨not_dangling_of_node hnode, frugal.known⟩)
      exact List.forall_mem_append.mpr
        ⟨List.forall_mem_cons.mpr ⟨wider, insideFrugal wider⟩, restFrugal frugal⟩

theorem texts_eq (run : schema.RenderRun opened waiting log texts) :
    texts = waiting.map (schema.renderWithin opened) := by
  induction run with
  | done => rfl
  | unknown hnode _ ih => rw [List.map_cons, renderWithin_of_dangling hnode, ih]
  | again hnode hopened _ ih => rw [List.map_cons, renderWithin_of_mem hnode hopened, ih]
  | opened hnode new _ _ insideSame ih =>
      have same := Node.describe_congr (List.map_inj_left.mp insideSame)
      rw [List.map_cons, renderWithin_of_notMem hnode new, ih, same]

end RenderRun

end Schema
end Conform
