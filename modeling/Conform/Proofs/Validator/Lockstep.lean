import Conform.Proofs.Validator.Reordering

/-!
Runs on two schemas that call for the same nodes in the same order. Slots differ, and so may the
texts in messages and the order of known keys, but mismatches are found one for one at the same
paths and of the same kinds, and the limit is reached in the same place.
-/

namespace Conform

def placesOf {ε : Type} (result : Except ε (List Mismatch)) :
    Except ε (List (List String × MismatchKind)) :=
  result.map (List.map Mismatch.place)

section Results

theorem placesOf_saying {ε : Type} (path : List String) (kind : MismatchKind) (text : String) :
    placesOf (ε := ε) (.ok [.saying path kind text]) = .ok [(path, kind)] :=
  rfl

theorem placesOf_unless {ε : Type} (accepted : Except ε Bool) (path : List String)
    (kind : MismatchKind) (text : String) :
    placesOf (do if ← accepted then return [] else return [.saying path kind text]) =
      accepted.map fun accepted => if accepted then [] else [(path, kind)] := by
  cases accepted with
  | error fault => rfl
  | ok accepted => cases accepted <;> rfl

variable {ε α : Type} {f f' : α → Except ε (List Mismatch)} {xs : List α}

theorem placesOf_gather_map (same : ∀ x ∈ xs, placesOf (f' x) = placesOf (f x)) :
    placesOf (gather (xs.map f')) = placesOf (gather (xs.map f)) := by
  rw [placesOf, placesOf, gather_map, gather_map, List.map_map, List.map_map]
  exact congrArg gather (List.map_congr_left same)

theorem anyEmpty_map_eq (same : ∀ x ∈ xs, placesOf (f' x) = placesOf (f x)) :
    anyEmpty (xs.map f') = anyEmpty (xs.map f) := by
  rw [← anyEmpty_map Mismatch.place, ← anyEmpty_map Mismatch.place (xs.map f), List.map_map,
    List.map_map]
  exact congrArg anyEmpty (List.map_congr_left same)

theorem placesOf_append {result result' : Except ε (List Mismatch)} {more more' : List Mismatch}
    (same : placesOf result' = placesOf result)
    (rest : more'.map Mismatch.place = more.map Mismatch.place) :
    placesOf (return (← result') ++ more') = placesOf (return (← result) ++ more) := by
  have split : ∀ (result : Except ε (List Mismatch)) (more : List Mismatch),
      placesOf (return (← result) ++ more) =
        (placesOf result).map (· ++ more.map Mismatch.place) := by
    intro result more
    cases result with
    | error fault => rfl
    | ok found => exact congrArg Except.ok List.map_append
  rw [split, split, same, rest]

end Results

/-- Both guards have let in the same nodes, each in its own schema, and stop at the same point. -/
structure Guard.SameEntries (schema other : Schema) (guard guard' : Guard) : Prop where
  entered : ∃ ids : List NodeId, (∀ id ∈ ids, schema.Reachable id ∧ other.Reachable id) ∧
    guard.entered = ids.map schema.preorder.idxOf ∧ guard'.entered = ids.map other.preorder.idxOf
  repeats : guard'.repeats = guard.repeats
  limit : guard'.limit = guard.limit

namespace Schema

/-- Calls for the same node, each in its own schema, on the same value. -/
structure Lockstep (schema other : Schema) (id : NodeId) (call call' : Call) : Prop where
  slot : call.slot = schema.preorder.idxOf id
  slot' : call'.slot = other.preorder.idxOf id
  path : call'.path = call.path
  guard : Guard.SameEntries schema other call.guard call'.guard
  widened : keySet call'.widened = keySet call.widened
  value : call'.value = call.value

variable {schema other : Schema} {id : NodeId} {call call' : Call}

theorem mem_map_idxOf_preorder_iff {ids : List NodeId} (reached : ∀ i ∈ ids, schema.Reachable i) :
    schema.preorder.idxOf id ∈ ids.map schema.preorder.idxOf ↔ id ∈ ids := by
  rw [List.mem_map]
  constructor
  · rintro ⟨i, hi, same⟩
    rwa [← (List.idxOf_inj (mem_preorder_iff.mpr (reached i hi))).mp same]
  · exact fun h => ⟨id, h, rfl⟩

end Schema

open Schema

theorem Guard.SameEntries.enter {schema other : Schema} {guard guard' : Guard} {id : NodeId}
    (same : SameEntries schema other guard guard') (reached : schema.Reachable id)
    (reached' : other.Reachable id) :
    EnterAlike (SameEntries schema other) (guard.enter (schema.preorder.idxOf id))
      (guard'.enter (other.preorder.idxOf id)) := by
  obtain ⟨⟨ids, known, hentered, hentered'⟩, repeats, limit⟩ := same
  rw [Guard.enter, Guard.enter, hentered, hentered', repeats, limit]
  simp only [mem_map_idxOf_preorder_iff fun i hi => (known i hi).1,
    mem_map_idxOf_preorder_iff fun i hi => (known i hi).2]
  by_cases again : id ∈ ids
  · rw [if_pos again, if_pos again]
    split
    · exact .reached _
    · exact .entered ⟨⟨ids, known, rfl, rfl⟩, rfl, rfl⟩
  · rw [if_neg again, if_neg again]
    have knownNext := List.forall_mem_cons.mpr ⟨⟨reached, reached'⟩, known⟩
    exact .entered ⟨⟨id :: ids, knownNext, rfl, rfl⟩, rfl, rfl⟩

namespace Schema

variable {schema other : Schema} {id : NodeId} {call call' : Call}

namespace Lockstep

theorem item (lockstep : Lockstep schema other id call call') (element : NodeId) (i : Nat)
    (item : Json) :
    Lockstep schema other element (call.item (schema.preorder.idxOf element) i item)
      (call'.item (other.preorder.idxOf element) i item) where
  slot := rfl
  slot' := rfl
  path := congrArg (elementPath · i) lockstep.path
  guard := lockstep.guard
  widened := rfl
  value := rfl

theorem member (lockstep : Lockstep schema other id call call') (m : NodeId) :
    Lockstep schema other m (call.member (schema.preorder.idxOf m))
      (call'.member (other.preorder.idxOf m)) :=
  { lockstep with slot := rfl, slot' := rfl }

theorem part (lockstep : Lockstep schema other id call call') {members members' : List NodeId}
    (hnode : schema.node? id = some (.intersection members))
    (hnode' : other.node? id = some (.intersection members'))
    (sameKeys : other.keysBelow id = schema.keysBelow id) (m : NodeId) :
    Lockstep schema other m (call.part (schema.declaredKeys id members) (schema.preorder.idxOf m))
      (call'.part (other.declaredKeys id members') (other.preorder.idxOf m)) where
  slot := rfl
  slot' := rfl
  path := lockstep.path
  guard := lockstep.guard
  widened := by
    simp only [Call.part]
    rw [keySet_getD_declaredKeys hnode, keySet_getD_declaredKeys hnode', lockstep.widened, sameKeys]
  value := lockstep.value

theorem field (lockstep : Lockstep schema other id call call') {inner inner' : Guard}
    (inside : Guard.SameEntries schema other inner inner') (name : String)
    (entry : String × Property) (value : Json) :
    Lockstep schema other entry.2.definition
      (call.field name inner
        (schema.propertyCheck entry (schema.preorder.idxOf entry.2.definition)) value)
      (call'.field name inner'
        (other.propertyCheck entry (other.preorder.idxOf entry.2.definition)) value) where
  slot := rfl
  slot' := rfl
  path := congrArg (fun path => propertyPath (objectPath path name) entry.1) lockstep.path
  guard := inside
  widened := rfl
  value := rfl

section Answers

variable {ε : Type} {abort : LimitReached → ε} {checks checks' : List Check}
  {recur recur' : Call → Except ε (List Mismatch)}

def SamePlacesBelow (schema other : Schema) (checks' : List Check) (call' : Call)
    (recur recur' : Call → Except ε (List Mismatch)) (children : List NodeId) : Prop :=
  ∀ next next' child, call'.MayMake checks' next' → child ∈ children →
    Lockstep schema other child next next' → placesOf (recur' next') = placesOf (recur next)

theorem answer_array (lockstep : Lockstep schema other id call call') {element : NodeId}
    (hcheck : checks[call.slot]? = some (.array (schema.preorder.idxOf element)))
    (hcheck' : checks'[call'.slot]? = some (.array (other.preorder.idxOf element)))
    (below : SamePlacesBelow schema other checks' call' recur recur' [element]) :
    placesOf (call'.answer abort checks' recur') = placesOf (call.answer abort checks recur) := by
  simp only [Call.answer, hcheck, hcheck', lockstep.path, ← lockstep.value]
  cases hvalue : call'.value with
  | array items =>
      simp only [placesOf, gather_map, List.map_map]
      refine congrArg gather (List.map_congr_left fun entry hentry => ?_)
      exact below _ _ element (Call.mayMake_item hcheck' hvalue hentry) List.mem_cons_self
        (lockstep.item element entry.2 entry.1)
  | _ => rfl

theorem answer_tuple (lockstep : Lockstep schema other id call call') {elements : List NodeId}
    {rendered rendered' : String}
    (hcheck : checks[call.slot]? = some (.tuple (elements.map schema.preorder.idxOf) rendered))
    (hcheck' : checks'[call'.slot]? = some (.tuple (elements.map other.preorder.idxOf) rendered'))
    (below : SamePlacesBelow schema other checks' call' recur recur' elements) :
    placesOf (call'.answer abort checks' recur') = placesOf (call.answer abort checks recur) := by
  simp only [Call.answer, hcheck, hcheck', lockstep.path, ← lockstep.value, List.length_map]
  cases hvalue : call'.value with
  | array items =>
      simp only
      split
      · rename_i hlength
        simp only [placesOf, gather_map, List.zip_map_left, List.zipIdx_map, List.map_map]
        refine congrArg gather (List.map_congr_left fun entry hentry => ?_)
        obtain ⟨helement, hitem⟩ :=
          List.getElem?_zip_eq_some.mp (List.mem_zipIdx_iff_getElem?.mp hentry)
        have hnumber : (elements.map other.preorder.idxOf)[entry.2]? =
            some (other.preorder.idxOf entry.1.1) := by
          rw [List.getElem?_map, helement, Option.map_some]
        refine below _ _ entry.1.1 ?_ (List.mem_of_getElem? helement)
          (lockstep.item entry.1.1 entry.2 entry.1.2)
        exact .position hcheck' hvalue (by rwa [List.length_map]) hnumber hitem
      · rw [placesOf_saying, placesOf_saying]
  | _ => simp only [placesOf_saying]

/-- Unions on the same value fail alike, whatever their members are, if some member accepts it in
both or in neither. -/
theorem answer_union (lockstep : Lockstep schema other id call call') {members members' : List Slot}
    {possibilities possibilities' : String}
    (hcheck : checks[call.slot]? = some (.union members possibilities))
    (hcheck' : checks'[call'.slot]? = some (.union members' possibilities'))
    (same : anyEmpty (members'.map fun m => recur' (call'.member m)) =
      anyEmpty (members.map fun m => recur (call.member m))) :
    placesOf (call'.answer abort checks' recur') = placesOf (call.answer abort checks recur) := by
  simp only [Call.answer, hcheck, hcheck', lockstep.path, same, placesOf_unless]

theorem unknownKeys (lockstep : Lockstep schema other id call call') (name : String)
    (properties : List (String × Property)) (entries : List (String × Json)) :
    (Conform.unknownKeys (objectPath call.path name) name (properties.map fun entry =>
        other.propertyCheck entry (other.preorder.idxOf entry.2.definition))
      (call'.widened.getD []) entries).map Mismatch.place =
    (Conform.unknownKeys (objectPath call.path name) name (properties.map fun entry =>
        schema.propertyCheck entry (schema.preorder.idxOf entry.2.definition))
      (call.widened.getD []) entries).map Mismatch.place := by
  have known : ∀ key, key ∈ call'.widened.getD [] ↔ key ∈ call.widened.getD [] := fun key => by
    rw [← mem_keySet_getD, ← mem_keySet_getD, lockstep.widened]
  simp only [map_place_unknownKeys, any_key_propertyChecks, known]

theorem ofProperty (lockstep : Lockstep schema other id call call') {name : String}
    {inner inner' : Guard} {entries : List (String × Json)} {entry : String × Property}
    (below : ∀ value, Json.field? entries entry.1 = some value →
      placesOf (recur' (call'.field name inner'
        (other.propertyCheck entry (other.preorder.idxOf entry.2.definition)) value)) =
      placesOf (recur (call.field name inner
        (schema.propertyCheck entry (schema.preorder.idxOf entry.2.definition)) value))) :
    placesOf (call'.ofProperty recur' name inner' entries
        (other.propertyCheck entry (other.preorder.idxOf entry.2.definition))) =
      placesOf (call.ofProperty recur name inner entries
        (schema.propertyCheck entry (schema.preorder.idxOf entry.2.definition))) := by
  simp only [Call.ofProperty, propertyCheck] at below ⊢
  cases hfield : Json.field? entries entry.1 with
  | some value => exact below value hfield
  | none =>
      refine congrArg Except.ok ?_
      rw [map_place_absence, map_place_absence, lockstep.path]

theorem answer_object (lockstep : Lockstep schema other id call call') {name : String}
    {properties : List (String × Property)}
    (enters : Guard.EnterAlike (Guard.SameEntries schema other) (call.guard.enter call.slot)
      (call'.guard.enter call'.slot))
    (hcheck : checks[call.slot]? = some (.object name (properties.map fun entry =>
      schema.propertyCheck entry (schema.preorder.idxOf entry.2.definition))))
    (hcheck' : checks'[call'.slot]? = some (.object name (properties.map fun entry =>
      other.propertyCheck entry (other.preorder.idxOf entry.2.definition))))
    (below : SamePlacesBelow schema other checks' call' recur recur'
      (properties.map (·.2.definition))) :
    placesOf (call'.answer abort checks' recur') = placesOf (call.answer abort checks recur) := by
  simp only [Call.answer, hcheck, hcheck', lockstep.path, ← lockstep.value]
  cases hvalue : call'.value with
  | object entries =>
      generalize call.guard.enter call.slot = entered at enters
      generalize henter : call'.guard.enter call'.slot = entered' at enters
      cases enters with
      | reached reached => rfl
      | @entered inner inner' inside =>
          refine placesOf_append ?_ (lockstep.unknownKeys name properties entries)
          rw [List.map_map, List.map_map]
          refine placesOf_gather_map fun entry hentry => lockstep.ofProperty fun value hfield => ?_
          refine below _ _ entry.2.definition ?_ (List.mem_map_of_mem hentry)
            (lockstep.field inside name entry value)
          exact .field hcheck' hvalue henter (List.mem_map_of_mem hentry) hfield
  | _ => rfl

theorem answer_of_node (lockstep : Lockstep schema other id call call') {node : Node}
    (hnode : schema.node? id = some node) (hnode' : other.node? id = some node)
    (reached : schema.Reachable id) (reached' : other.Reachable id)
    (sameKeys : other.keysBelow id = schema.keysBelow id)
    (hcheck : checks[call.slot]? = some (Check.ofNode schema schema.preorder id node))
    (hcheck' : checks'[call'.slot]? = some (Check.ofNode other other.preorder id node))
    (below : SamePlacesBelow schema other checks' call' recur recur' node.children) :
    placesOf (call'.answer abort checks' recur') = placesOf (call.answer abort checks recur) := by
  cases node with
  | valueType kind =>
      simp only [Call.answer, hcheck, hcheck', Check.ofNode, lockstep.path, lockstep.value]
  | literal expected =>
      simp only [Call.answer, hcheck, hcheck', Check.ofNode, lockstep.path, lockstep.value]
  | enum name values =>
      simp only [Call.answer, hcheck, hcheck', Check.ofNode, lockstep.path, lockstep.value]
  | array element => exact lockstep.answer_array hcheck hcheck' below
  | tuple elements => exact lockstep.answer_tuple hcheck hcheck' below
  | union members =>
      refine lockstep.answer_union hcheck hcheck' ?_
      rw [List.map_map, List.map_map]
      refine anyEmpty_map_eq fun m hm => ?_
      exact below _ _ m (Call.mayMake_member hcheck' (List.mem_map_of_mem hm)) hm
        (lockstep.member m)
  | intersection members =>
      simp only [Call.answer, hcheck, hcheck', Check.ofNode, List.map_map]
      refine placesOf_gather_map fun m hm => ?_
      exact below _ _ m (.part hcheck' (List.mem_map_of_mem hm)) hm
        (lockstep.part hnode hnode' sameKeys m)
  | object name properties =>
      refine lockstep.answer_object ?_ hcheck hcheck' below
      rw [lockstep.slot, lockstep.slot']
      exact lockstep.guard.enter reached reached'

end Answers

end Lockstep

end Schema
end Conform
