import Conform.Proofs.Validator.Lockstep
import Conform.Proofs.Validator.Replacement

namespace Conform

open Relation

section Results

variable {ε α : Type}

theorem gather_append (results more : List (Except ε (List α))) :
    gather (results ++ more) = (do return (← gather results) ++ (← gather more)) := by
  induction results with
  | nil =>
      cases hmore : gather more <;> simp [gather, hmore, bind, Except.bind, pure, Except.pure]
  | cons first rest ih =>
      rw [List.cons_append, gather, gather, ih]
      cases first with
      | error fault => rfl
      | ok found =>
          cases gather rest with
          | error fault => rfl
          | ok others =>
              cases gather more with
              | error fault => rfl
              | ok last => simp [bind, Except.bind, pure, Except.pure]

theorem gather_nested (before inner after : List (Except ε (List α))) :
    gather (before ++ gather inner :: after) = gather (before ++ inner ++ after) := by
  have same : gather (gather inner :: after) = gather (inner ++ after) := by
    rw [gather, gather_append]
  rw [List.append_assoc, gather_append, gather_append, same]

theorem anyEmpty_append (results more : List (Except ε (List α))) :
    anyEmpty (results ++ more) =
      (do if ← anyEmpty results then return true else anyEmpty more) := by
  induction results with
  | nil => rfl
  | cons first rest ih =>
      rw [List.cons_append, anyEmpty, anyEmpty, ih]
      cases first with
      | error fault => rfl
      | ok found => cases found <;> rfl

theorem anyEmpty_nested (before inner after : List (Except ε (List α))) (fault : α) :
    anyEmpty (before ++ (do if ← anyEmpty inner then return [] else return [fault]) :: after) =
      anyEmpty (before ++ inner ++ after) := by
  have same : anyEmpty ((do if ← anyEmpty inner then return [] else return [fault]) :: after) =
      anyEmpty (inner ++ after) := by
    rw [anyEmpty, anyEmpty_append]
    cases anyEmpty inner with
    | error reached => rfl
    | ok accepted => cases accepted <;> rfl
  rw [List.append_assoc, anyEmpty_append, anyEmpty_append, same]

end Results

namespace Schema

/-- A node with the members of one of its members in place of that member, both of them unions or
both intersections. -/
inductive Flattens (schema : Schema) (outer : NodeId) : Node → Prop
  | union {before inner after : List NodeId} {nested : NodeId}
      (hnode : schema.node? outer = some (.union (before ++ nested :: after)))
      (hnested : schema.node? nested = some (.union inner)) :
      Flattens schema outer (.union (before ++ inner ++ after))
  | intersection {before inner after : List NodeId} {nested : NodeId}
      (hnode : schema.node? outer = some (.intersection (before ++ nested :: after)))
      (hnested : schema.node? nested = some (.intersection inner)) :
      Flattens schema outer (.intersection (before ++ inner ++ after))

variable {schema : Schema} {outer : NodeId} {flat : Node} {validator validator' : Validator}

/-- What flattening does to members and keys, to unions and to intersections alike. -/
structure Splices (schema : Schema) (outer nested : NodeId) (flat old inner : Node) : Prop where
  outerNode : schema.node? outer = some old
  nestedNode : schema.node? nested = some inner
  nested_mem : nested ∈ old.combined
  of_flat : ∀ m ∈ flat.combined, m ∈ old.combined ∨ m ∈ inner.combined
  of_outer : ∀ m ∈ old.combined, m ∈ flat.combined ∨ m = nested
  of_nested : inner.combined ⊆ flat.combined
  children : flat.children = flat.combined
  keys : flat.keys = [] ∧ old.keys = [] ∧ inner.keys = []

theorem Flattens.exists_splices (flattens : schema.Flattens outer flat) :
    ∃ nested old inner, schema.Splices outer nested flat old inner := by
  cases flattens with
  | union hnode hnested =>
      refine ⟨_, _, _, hnode, hnested, ?_, ?_, ?_, ?_, rfl, rfl, rfl, rfl⟩ <;>
        grind [Node.combined]
  | intersection hnode hnested =>
      refine ⟨_, _, _, hnode, hnested, ?_, ?_, ?_, ?_, rfl, rfl, rfl, rfl⟩ <;>
        grind [Node.combined]

theorem Flattens.node?_replace_self (flattens : schema.Flattens outer flat) :
    (schema.replace outer flat).node? outer = some flat := by
  obtain ⟨nested, old, inner, splices⟩ := flattens.exists_splices
  exact Schema.node?_replace_self splices.outerNode flat

theorem Splices.transGen_combines {nested : NodeId} {old inner : Node}
    (splices : schema.Splices outer nested flat old inner) :
    ∀ m ∈ flat.combined, TransGen schema.Combines outer m := by
  intro m hm
  have hnested := (combines_iff_of_node splices.outerNode).mpr splices.nested_mem
  rcases splices.of_flat m hm with hm | hm
  · exact .single ((combines_iff_of_node splices.outerNode).mpr hm)
  · exact .tail (.single hnested) ((combines_iff_of_node splices.nestedNode).mpr hm)

theorem Splices.reflTransGen_refers {nested : NodeId} {old inner : Node}
    (splices : schema.Splices outer nested flat old inner) :
    ∀ child ∈ flat.children, ReflTransGen schema.Refers outer child := by
  intro child hchild
  rw [splices.children] at hchild
  have hpath := splices.transGen_combines child hchild
  exact (TransGen.mono (fun _ _ h => h.refers) _ _ hpath).to_reflTransGen

theorem Flattens.reachable_of_replace (flattens : schema.Flattens outer flat) {id : NodeId}
    (h : (schema.replace outer flat).Reachable id) : schema.Reachable id := by
  obtain ⟨nested, old, inner, splices⟩ := flattens.exists_splices
  exact Schema.reachable_of_replace splices.outerNode splices.reflTransGen_refers h

theorem Flattens.exists_compile (flattens : schema.Flattens outer flat)
    (compiled : schema.compile = .ok validator) :
    ∃ validator', (schema.replace outer flat).compile = .ok validator' := by
  obtain ⟨nested, old, inner, splices⟩ := flattens.exists_splices
  exact exists_compile_replace splices.outerNode flat splices.reflTransGen_refers
    splices.transGen_combines ⟨validator, compiled⟩

theorem Flattens.keysFrom_replace (flattens : schema.Flattens outer flat) (start : NodeId) :
    (schema.replace outer flat).keysFrom start = schema.keysFrom start := by
  obtain ⟨nested, old, inner, splices⟩ := flattens.exists_splices
  obtain ⟨flatKeys, oldKeys, innerKeys⟩ := splices.keys
  have new := flattens.node?_replace_self
  have here : ∀ {m}, m ∈ flat.combined →
      (schema.replace outer flat).keysFrom m ⊆ (schema.replace outer flat).keysFrom outer :=
    fun hm key hkey => mem_keysFrom_of_combines ((combines_iff_of_node new).mpr hm) hkey
  refine Schema.keysFrom_replace splices.outerNode flat ?_ ?_ ?_ ?_ start
  · simp [flatKeys]
  · rintro m hm key ⟨object, hpath, hdeclares⟩
    have hpath := (splices.transGen_combines m hm).to_reflTransGen.trans hpath
    exact ⟨object, hpath, hdeclares⟩
  · simp [oldKeys]
  · intro m hm key hkey
    rcases splices.of_outer m hm with hm | rfl
    · exact here hm hkey
    · by_cases same : m = outer
      · exact same ▸ hkey
      · -- The nested node declares nothing itself, so the key is found by one of its members.
        have hnested : (schema.replace outer flat).node? m = some inner :=
          (node?_replace_of_ne same).trans splices.nestedNode
        rw [mem_keysFrom_iff, declares_iff_of_node hnested, innerKeys, mem_keysBelow_iff] at hkey
        obtain ⟨below, hstep, hkey⟩ := hkey.resolve_left List.not_mem_nil
        exact here (splices.of_nested ((combines_iff_of_node hnested).mp hstep)) hkey

theorem Flattens.keysBelow_replace (flattens : schema.Flattens outer flat) (id : NodeId) :
    (schema.replace outer flat).keysBelow id = schema.keysBelow id := by
  by_cases h : id = outer
  · subst h
    obtain ⟨nested, old, inner, splices⟩ := flattens.exists_splices
    obtain ⟨flatKeys, oldKeys, -⟩ := splices.keys
    have same := flattens.keysFrom_replace id
    have whole : ∀ {other : Schema} {node : Node}, other.node? id = some node → node.keys = [] →
        other.keysFrom id = other.keysBelow id := by
      intro other node hnode hkeys
      ext key
      rw [mem_keysFrom_iff, declares_iff_of_node hnode, hkeys]
      exact or_iff_right List.not_mem_nil
    rwa [whole flattens.node?_replace_self flatKeys, whole splices.outerNode oldKeys] at same
  · exact keysBelow_replace_of_ne flattens.keysFrom_replace h

/-! Runs. -/

variable {id : NodeId} {call call' : Call}

theorem check_of_compile (compiled : schema.compile = .ok validator)
    (reached : schema.Reachable id) (hslot : call.slot = schema.preorder.idxOf id) {node : Node}
    (hnode : schema.node? id = some node) :
    validator.checks[call.slot]? = some (Check.ofNode schema schema.preorder id node) := by
  obtain ⟨_, hother, hcheck⟩ := exists_check_of_compile compiled reached
  obtain rfl := Option.some.inj (hnode.symm.trans hother)
  rwa [hslot]

section Nested

variable {before inner after : List NodeId} {nested : NodeId}

theorem anyEmpty_run_nested (compiled : schema.compile = .ok validator)
    (reached : schema.Reachable nested) (hnested : schema.node? nested = some (.union inner)) :
    anyEmpty ((before ++ nested :: after).map fun m =>
        validator.run (call.member (schema.preorder.idxOf m))) =
      anyEmpty ((before ++ inner ++ after).map fun m =>
        validator.run (call.member (schema.preorder.idxOf m))) := by
  let nestedCall := call.member (schema.preorder.idxOf nested)
  have hcheck : validator.checks[nestedCall.slot]? = some _ :=
    check_of_compile compiled reached rfl hnested
  have answer := validator.run_eq_answer nestedCall
  simp only [Call.answer, hcheck, Check.ofNode, List.map_map] at answer
  rw [List.map_append, List.map_cons, List.map_append, List.map_append, answer]
  exact anyEmpty_nested _ _ _ _

theorem gather_run_nested (compiled : schema.compile = .ok validator)
    (reached : schema.Reachable nested) (hnested : schema.node? nested = some (.intersection inner))
    (declared : List String) :
    gather ((before ++ nested :: after).map fun m =>
        validator.run (call.part declared (schema.preorder.idxOf m))) =
      gather ((before ++ inner ++ after).map fun m =>
        validator.run (call.part declared (schema.preorder.idxOf m))) := by
  let nestedCall := call.part declared (schema.preorder.idxOf nested)
  have hcheck : validator.checks[nestedCall.slot]? = some _ :=
    check_of_compile compiled reached rfl hnested
  have answer := validator.run_eq_answer nestedCall
  simp only [Call.answer, hcheck, Check.ofNode, List.map_map] at answer
  rw [List.map_append, List.map_cons, List.map_append, List.map_append, answer]
  exact gather_nested _ _ _

theorem Lockstep.placesOf_union (compiled : schema.compile = .ok validator)
    (hnode : schema.node? id = some (.union (before ++ nested :: after)))
    (hnested : schema.node? nested = some (.union inner)) (reached : schema.Reachable id)
    {other : Schema} (lockstep : Lockstep schema other id call call')
    (hcheck' : validator'.checks[call'.slot]? = some
      (Check.ofNode other other.preorder id (.union (before ++ inner ++ after))))
    (below : SamePlacesBelow schema other validator'.checks call' validator.run validator'.run
      (before ++ inner ++ after)) :
    placesOf (validator'.run call') = placesOf (validator.run call) := by
  have hcheck := check_of_compile compiled reached lockstep.slot hnode
  have reachedNested : schema.Reachable nested :=
    reached.child (refers_of_node hnode (by simp [Node.children]))
  rw [Validator.run_eq_answer, Validator.run_eq_answer]
  refine lockstep.answer_union hcheck hcheck' ?_
  rw [List.map_map, List.map_map]
  refine Eq.trans ?_ (anyEmpty_run_nested compiled reachedNested hnested).symm
  refine anyEmpty_map_eq fun m hm => ?_
  exact below _ _ m (Call.mayMake_member hcheck' (List.mem_map_of_mem hm)) hm (lockstep.member m)

theorem Lockstep.placesOf_intersection (compiled : schema.compile = .ok validator)
    (hnode : schema.node? id = some (.intersection (before ++ nested :: after)))
    (hnested : schema.node? nested = some (.intersection inner)) (reached : schema.Reachable id)
    {other : Schema} (lockstep : Lockstep schema other id call call')
    (hnode' : other.node? id = some (.intersection (before ++ inner ++ after)))
    (sameKeys : other.keysBelow id = schema.keysBelow id)
    (hcheck' : validator'.checks[call'.slot]? = some
      (Check.ofNode other other.preorder id (.intersection (before ++ inner ++ after))))
    (below : SamePlacesBelow schema other validator'.checks call' validator.run validator'.run
      (before ++ inner ++ after)) :
    placesOf (validator'.run call') = placesOf (validator.run call) := by
  have hcheck := check_of_compile compiled reached lockstep.slot hnode
  have reachedNested : schema.Reachable nested :=
    reached.child (refers_of_node hnode (by simp [Node.children]))
  rw [Validator.run_eq_answer, Validator.run_eq_answer]
  simp only [Call.answer, hcheck, hcheck', Check.ofNode, List.map_map]
  refine Eq.trans ?_ (congrArg placesOf (gather_run_nested compiled reachedNested hnested _).symm)
  refine placesOf_gather_map fun m hm => ?_
  exact below _ _ m (.part hcheck' (List.mem_map_of_mem hm)) hm
    (lockstep.part hnode hnode' sameKeys m)

end Nested

theorem Flattens.placesOf_run (flattens : schema.Flattens outer flat)
    (compiled : schema.compile = .ok validator)
    (compiled' : (schema.replace outer flat).compile = .ok validator')
    (reached' : (schema.replace outer flat).Reachable id)
    (lockstep : Lockstep schema (schema.replace outer flat) id call call') :
    placesOf (validator'.run call') = placesOf (validator.run call) := by
  induction call' using validator'.call_induction generalizing id call with
  | step call' ih =>
      have reached : schema.Reachable id := flattens.reachable_of_replace reached'
      have sameKeys := flattens.keysBelow_replace id
      have below : ∀ {node}, (schema.replace outer flat).node? id = some node →
          Lockstep.SamePlacesBelow schema (schema.replace outer flat) validator'.checks call'
            validator.run validator'.run node.children :=
        fun hnode next next' child hnext hchild lockstep =>
          ih next' hnext (reached'.child (refers_of_node hnode hchild)) lockstep
      by_cases h : id = outer
      · subst h
        have hnode' := flattens.node?_replace_self
        cases flattens with
        | union hnode hnested =>
            exact lockstep.placesOf_union compiled hnode hnested reached
              (check_of_compile compiled' reached' lockstep.slot' hnode') (below hnode')
        | intersection hnode hnested =>
            exact lockstep.placesOf_intersection compiled hnode hnested reached hnode' sameKeys
              (check_of_compile compiled' reached' lockstep.slot' hnode') (below hnode')
      · obtain ⟨node, hnode, -⟩ := exists_check_of_compile compiled reached
        have hnode' : (schema.replace outer flat).node? id = some node :=
          (node?_replace_of_ne h).trans hnode
        rw [Validator.run_eq_answer, Validator.run_eq_answer]
        exact lockstep.answer_of_node hnode hnode' reached reached' sameKeys
          (check_of_compile compiled reached lockstep.slot hnode)
          (check_of_compile compiled' reached' lockstep.slot' hnode') (below hnode')

/-- Nothing is seen of a nested union or intersection but its members. With these in its place the
schema still compiles, and at any limit as many mismatches are found as before, one for one at the
same paths and of the same kinds, or the limit is reached just as before. -/
theorem flattening_unobservable (flattens : schema.Flattens outer flat)
    (compiled : schema.compile = .ok validator) :
    ∃ validator', (schema.replace outer flat).compile = .ok validator' ∧
      ∀ value limit, (validator'.validate value limit).map (List.map Mismatch.place) =
        (validator.validate value limit).map (List.map Mismatch.place) := by
  obtain ⟨validator', compiled'⟩ := flattens.exists_compile compiled
  refine ⟨validator', compiled', fun value limit => ?_⟩
  obtain ⟨-, -, -, -, hroot, -⟩ := holds_images_of_compile compiled
  obtain ⟨-, -, -, -, hroot', -⟩ := holds_images_of_compile compiled'
  have lockstep : Lockstep schema (schema.replace outer flat) schema.root
      (.start validator.root value limit) (.start validator'.root value limit) :=
    ⟨hroot, hroot', rfl, ⟨⟨[], List.forall_mem_nil _, rfl, rfl⟩, rfl, rfl⟩, rfl, rfl⟩
  exact flattens.placesOf_run compiled compiled' (Reachable.root _) lockstep

def numberTrees : Schema where
  root := ⟨0⟩
  nodes := [
    .union [⟨1⟩, ⟨2⟩],
    .valueType .null,
    .union [⟨3⟩, ⟨4⟩, ⟨7⟩],
    .valueType .number,
    .object "Branch" [("left", { definition := ⟨0⟩ }), ("right", { definition := ⟨0⟩ })],
    .object "Named" [("name", { definition := ⟨6⟩ })],
    .valueType .string,
    .intersection [⟨5⟩, ⟨4⟩]]

theorem numberTrees_flattened : ∃ validator validator',
    numberTrees.compile = .ok validator ∧
    numberTrees.Flattens ⟨0⟩ (.union ([⟨1⟩] ++ [⟨3⟩, ⟨4⟩, ⟨7⟩] ++ [])) ∧
    (numberTrees.replace ⟨0⟩ (.union ([⟨1⟩] ++ [⟨3⟩, ⟨4⟩, ⟨7⟩] ++ []))).compile =
      .ok validator' ∧
    ∀ value limit, (validator'.validate value limit).map (List.map Mismatch.place) =
      (validator.validate value limit).map (List.map Mismatch.place) := by
  have known : numberTrees.firstDangling? = none := by cbv
  have search : numberTrees.images.searchCycles = .ok [7, 0, 2, 5, 6, 4, 3, 1] := by cbv
  obtain ⟨validator, compiled⟩ := exists_validator_iff_searchCycles.mpr
    ⟨firstDangling?_eq_none_iff.mp known, _, search⟩
  have flattens : numberTrees.Flattens ⟨0⟩ (.union ([⟨1⟩] ++ [⟨3⟩, ⟨4⟩, ⟨7⟩] ++ [])) :=
    .union rfl rfl
  obtain ⟨validator', compiled', same⟩ := flattening_unobservable flattens compiled
  exact ⟨validator, validator', compiled, flattens, compiled', same⟩

end Schema
end Conform
