import Conform.Proofs.Schema.Reachability
import Conform.Validator.Builder
import Mathlib.Data.List.Basic

/-!
What building gives. The nodes get their slots in the order of the depth-first walk, and the check
in a slot is the image of its node under that numbering. While a node is being built its own slot is
empty, so the invariant speaks of the slots that were added since and of those that were left alone.
-/

namespace Conform

/-- The image of a node when the nodes are numbered by their position in `order`. -/
def Check.ofNode (schema : Schema) (order : List NodeId) (id : NodeId) : Node → Check
  | .valueType kind => .valueType kind
  | .literal value => .literal value value.literal
  | .object name properties =>
      .object name (properties.map fun entry =>
        schema.propertyCheck entry (order.idxOf entry.2.definition))
  | .array element => .array (order.idxOf element)
  | .tuple elements => .tuple (elements.map order.idxOf) (schema.render id)
  | .union members =>
      .union (members.map order.idxOf) (", ".intercalate (members.map schema.render))
  | .intersection members =>
      .intersection (members.map order.idxOf) (schema.declaredKeys id members)
  | .enum name values => .enum name values (Scalar.list values)

theorem idxOf_eq_of_grown {order more : List NodeId} (grown : order <+: more) {id : NodeId}
    (met : id ∈ order) : more.idxOf id = order.idxOf id := by
  obtain ⟨rest, rfl⟩ := grown
  exact List.idxOf_append_of_mem met

theorem Check.ofNode_of_grown {schema : Schema} {order more : List NodeId}
    (grown : order <+: more) {id : NodeId} {node : Node} (met : node.children ⊆ order) :
    Check.ofNode schema more id node = Check.ofNode schema order id node := by
  have same : ∀ child ∈ node.children, more.idxOf child = order.idxOf child :=
    fun child hchild => idxOf_eq_of_grown grown (met hchild)
  have sameAll : node.children.map more.idxOf = node.children.map order.idxOf :=
    List.map_congr_left same
  cases node with
  | valueType kind => rfl
  | literal value => rfl
  | enum name values => rfl
  | array element => simp only [ofNode, same element (by simp [Node.children])]
  | tuple elements =>
      rw [ofNode, ofNode]
      congr 1
  | union members =>
      rw [ofNode, ofNode]
      congr 1
  | intersection members =>
      rw [ofNode, ofNode]
      congr 1
  | object name properties =>
      simp only [ofNode, Check.object.injEq, true_and]
      apply List.map_congr_left
      intro entry hentry
      rw [same entry.2.definition (List.mem_map_of_mem hentry)]

namespace Builder

structure WellFormed (schema : Schema) (builder : Builder) : Prop where
  sameLength : builder.slots.length = builder.origins.length
  nodup : builder.origins.Nodup
  known : ∀ id ∈ builder.origins, ¬ schema.Dangling id

/-- Building went on from `before` to `after`: what was there stays as it is, and every slot that
was added holds the image of its node. -/
structure Extends (schema : Schema) (before after : Builder) : Prop where
  wellFormed : after.WellFormed schema
  grown : before.origins <+: after.origins
  kept : ∀ slot < before.origins.length, after.slots[slot]? = before.slots[slot]?
  filled : ∀ slot id node, before.origins.length ≤ slot → after.origins[slot]? = some id →
    schema.node? id = some node → node.children ⊆ after.origins ∧
      after.slots[slot]? = some (some (Check.ofNode schema after.origins id node))

variable {schema : Schema} {before middle after : Builder} {id : NodeId} {node : Node}

theorem WellFormed.empty (schema : Schema) : Builder.empty.WellFormed schema where
  sameLength := rfl
  nodup := List.nodup_nil
  known := by simp [Builder.empty]

theorem WellFormed.reserve (wellFormed : before.WellFormed schema) (new : id ∉ before.origins)
    (hnode : schema.node? id = some node) : (before.reserve id).WellFormed schema where
  sameLength := by simp [Builder.reserve, wellFormed.sameLength]
  nodup := by
    rw [Builder.reserve, List.nodup_append]
    refine ⟨wellFormed.nodup, by simp, ?_⟩
    intro old hold last hlast heq
    obtain rfl : last = id := List.mem_singleton.mp hlast
    exact new (heq ▸ hold)
  known := by
    intro other hother
    rcases List.mem_append.mp hother with hold | hnew
    · exact wellFormed.known other hold
    · rw [List.mem_singleton.mp hnew, Schema.Dangling, hnode]
      simp

theorem Extends.refl (wellFormed : before.WellFormed schema) : Extends schema before before where
  wellFormed := wellFormed
  grown := List.prefix_rfl
  kept := fun _ _ => rfl
  filled := by
    intro slot id node hslot hid
    have hlt : slot < before.origins.length := (List.getElem?_eq_some_iff.mp hid).1
    omega

theorem Extends.trans (first : Extends schema before middle)
    (second : Extends schema middle after) : Extends schema before after where
  wellFormed := second.wellFormed
  grown := first.grown.trans second.grown
  kept := by
    intro slot hslot
    rw [second.kept slot (Nat.lt_of_lt_of_le hslot first.grown.length_le), first.kept slot hslot]
  filled := by
    intro slot id node hslot hid hnode
    by_cases hmiddle : slot < middle.origins.length
    · have hidMiddle : middle.origins[slot]? = some id := by
        rw [← hid, List.getElem?_eq_getElem hmiddle]
        exact (List.prefix_iff_getElem?.mp second.grown slot hmiddle).symm
      obtain ⟨met, holds⟩ := first.filled slot id node hslot hidMiddle hnode
      refine ⟨List.Subset.trans met second.grown.subset, ?_⟩
      rw [second.kept slot hmiddle, holds, Check.ofNode_of_grown second.grown met]
    · exact second.filled slot id node (Nat.le_of_not_lt hmiddle) hid hnode

theorem idxOf_reserved (new : id ∉ before.origins)
    (grown : (before.reserve id).origins <+: after.origins) :
    after.origins.idxOf id = before.origins.length := by
  rw [idxOf_eq_of_grown grown (by simp [Builder.reserve]), Builder.reserve,
    List.idxOf_append_of_notMem new]
  simp

theorem Extends.fill (wellFormed : before.WellFormed schema)
    (hnode : schema.node? id = some node) (below : Extends schema (before.reserve id) after)
    (met : node.children ⊆ after.origins) :
    Extends schema before
      (after.fill before.slots.length (Check.ofNode schema after.origins id node)) := by
  have reservedAt : before.slots.length = before.origins.length := wellFormed.sameLength
  have lengthReserved : (before.reserve id).origins.length = before.origins.length + 1 := by
    simp [Builder.reserve]
  have longer : before.origins.length + 1 ≤ after.origins.length := by
    rw [← lengthReserved]
    exact below.grown.length_le
  refine ⟨⟨?_, below.wellFormed.nodup, below.wellFormed.known⟩,
    (List.prefix_append before.origins [id]).trans below.grown, ?_, ?_⟩
  · simpa [Builder.fill] using below.wellFormed.sameLength
  · intro slot hslot
    simp only [Builder.fill]
    rw [List.getElem?_set_ne (by omega), below.kept slot (by omega)]
    simp only [Builder.reserve]
    rw [List.getElem?_append_left (by omega)]
  · intro slot other otherNode hslot hother hotherNode
    simp only [Builder.fill] at hother ⊢
    by_cases hreserved : slot = before.origins.length
    · have hself : after.origins[slot]? = some id := by
        have hlt : slot < (before.reserve id).origins.length := by omega
        rw [List.prefix_iff_getElem?.mp below.grown slot hlt]
        subst hreserved
        simp [Builder.reserve]
      obtain rfl : id = other := Option.some.inj (hself.symm.trans hother)
      obtain rfl : node = otherNode := Option.some.inj (hnode.symm.trans hotherNode)
      refine ⟨met, ?_⟩
      rw [hreserved, ← reservedAt, List.getElem?_set_self]
      rw [below.wellFormed.sameLength]
      omega
    · obtain ⟨otherMet, holds⟩ :=
        below.filled slot other otherNode (by omega) hother hotherNode
      refine ⟨otherMet, ?_⟩
      rw [List.getElem?_set_ne (by omega), holds]

/-- What building the nodes behind some handles may give: their values, after the walk has gone
past them, or the first handle on the walk that refers to nothing. -/
inductive Builds (schema : Schema) (before : Builder) (ids : List NodeId)
    (IsValue : α → List NodeId → Prop) : Except BuildFault (before.Grown α) → Prop
  | built (result : before.Grown α) (extended : Extends schema before result.1.2)
      (walked : ∀ waiting, schema.preorderFrom before.origins (ids ++ waiting) =
        schema.preorderFrom result.1.2.origins waiting)
      (isValue : IsValue result.1.1 result.1.2.origins) :
      Builds schema before ids IsValue (.ok result)
  | unknownNode (id : NodeId)
      (first : ∀ waiting, (schema.preorderFrom before.origins (ids ++ waiting)).find?
        (schema.Dangling ·) = some id) :
      Builds schema before ids IsValue (.error (.unknownNode id))

theorem met_of_walked {ids : List NodeId}
    (walked : ∀ waiting, schema.preorderFrom before.origins (ids ++ waiting) =
      schema.preorderFrom after.origins waiting) : ids ⊆ after.origins := by
  have all := schema.waiting_subset_preorderFrom before.origins ids
  rw [← List.append_nil ids, walked, Schema.preorderFrom_nil, List.append_nil] at all
  exact all

theorem Builds.map {ids : List NodeId} {IsValue : α → List NodeId → Prop}
    {IsPacked : β → List NodeId → Prop} {result : Except BuildFault (before.Grown α)}
    {pack : α → β} (builds : Builds schema before ids IsValue result)
    (packs : ∀ value order, IsValue value order → IsPacked (pack value) order) :
    Builds schema before ids IsPacked (result.map (Grown.map pack)) := by
  cases builds with
  | built result extended walked isValue =>
      exact .built _ extended walked (packs _ _ isValue)
  | unknownNode id first => exact .unknownNode id first

end Builder

namespace Schema

open Builder

variable {schema : Schema} {builder : Builder} {id : NodeId} {node : Node}

def IsSlot (id : NodeId) (slot : Slot) (order : List NodeId) : Prop := slot = order.idxOf id

def AreSlots (ids : List NodeId) (slots : List Slot) (order : List NodeId) : Prop :=
  slots = ids.map order.idxOf

def IsImage (schema : Schema) (id : NodeId) (node : Node) (check : Check) (order : List NodeId) :
    Prop :=
  check = Check.ofNode schema order id node

/-! Building by one equation for each case of a handle and of the handles that wait. -/

theorem slotFor_of_met {slot : Slot} (hslot : builder.slot? id = some slot) :
    schema.slotFor builder id = .ok ⟨(slot, builder), List.prefix_rfl⟩ := by
  rw [slotFor]
  split <;> simp_all

theorem slotFor_of_dangling (new : builder.slot? id = none) (hnode : schema.node? id = none) :
    schema.slotFor builder id = .error (.unknownNode id) := by
  rw [slotFor]
  split
  · simp_all
  · split
    · rfl
    · simp_all

theorem slotFor_of_new (new : builder.slot? id = none) (hnode : schema.node? id = some node) :
    schema.slotFor builder id =
      (schema.build (builder.reserve id) id node).map fun built =>
        ⟨(builder.slots.length, built.1.2.fill builder.slots.length built.1.1),
          (List.prefix_append ..).trans built.2⟩ := by
  rw [slotFor]
  split
  · simp_all
  · split
    · simp_all
    · rename_i other hother
      obtain rfl : node = other := Option.some.inj (hnode.symm.trans hother)
      cases schema.build (builder.reserve id) id node <;> rfl

theorem slotsFor_cons (schema : Schema) (builder : Builder) (id : NodeId) (rest : List NodeId) :
    schema.slotsFor builder (id :: rest) =
      (schema.slotFor builder id).bind fun first =>
        (schema.slotsFor first.1.2 rest).map fun others =>
          ⟨(first.1.1 :: others.1.1, others.1.2), first.2.trans others.2⟩ := by
  rw [slotsFor]
  cases schema.slotFor builder id with
  | error fault => rfl
  | ok first =>
      change Except.bind (schema.slotsFor first.1.2 rest) _ =
        Except.map _ (schema.slotsFor first.1.2 rest)
      cases schema.slotsFor first.1.2 rest <;> rfl

private theorem slotFor_builds_of_met {slot : Slot} (wellFormed : builder.WellFormed schema)
    (hslot : builder.slot? id = some slot) :
    Builds schema builder [id] (IsSlot id) (schema.slotFor builder id) := by
  obtain ⟨_, number⟩ := List.findIdx?_eq_some_iff_findIdx_eq.mp hslot
  have met : id ∈ builder.origins := List.isSome_idxOf?.mp (by rw [← slot?, hslot]; rfl)
  rw [slotFor_of_met hslot]
  exact .built _ (.refl wellFormed) (fun _ => preorderFrom_of_mem met) number.symm

private theorem slotFor_builds_of_dangling (wellFormed : builder.WellFormed schema)
    (new : builder.slot? id = none) (hnode : schema.node? id = none) :
    Builds schema builder [id] (IsSlot id) (schema.slotFor builder id) := by
  rw [slotFor_of_dangling new hnode]
  refine .unknownNode id fun waiting => ?_
  have here : (builder.origins ++ [id]).find? (schema.Dangling ·) = some id := by
    have none_before : builder.origins.find? (schema.Dangling ·) = none := by
      simpa [List.find?_eq_none] using wellFormed.known
    rw [List.find?_append, none_before]
    simp [Dangling, hnode]
  rw [List.singleton_append, preorderFrom_of_notMem (notMem_of_slot?_eq_none new)]
  exact (prefix_preorderFrom schema _ _).find?_eq_some here

private theorem slotFor_builds_of_new (wellFormed : builder.WellFormed schema)
    (new : builder.slot? id = none) (hnode : schema.node? id = some node)
    (below : Builds schema (builder.reserve id) node.children (IsImage schema id node)
      (schema.build (builder.reserve id) id node)) :
    Builds schema builder [id] (IsSlot id) (schema.slotFor builder id) := by
  have unmet : id ∉ builder.origins := notMem_of_slot?_eq_none new
  have onward : ∀ waiting, schema.preorderFrom builder.origins ([id] ++ waiting) =
      schema.preorderFrom (builder.reserve id).origins (node.children ++ waiting) := by
    intro waiting
    rw [List.singleton_append, preorderFrom_of_notMem unmet, childrenOf_of_node hnode]
    rfl
  rw [slotFor_of_new new hnode]
  generalize schema.build (builder.reserve id) id node = result at below
  cases below with
  | built result extended walked isValue =>
      obtain ⟨⟨check, after⟩, grown⟩ := result
      obtain rfl : check = Check.ofNode schema after.origins id node := isValue
      -- Slots were added behind the reserved one only, so its place is still the node's number.
      refine .built _ (.fill wellFormed hnode extended (met_of_walked walked)) ?_ ?_
      · intro waiting
        rw [onward, walked]
        rfl
      · rw [IsSlot, wellFormed.sameLength]
        exact (idxOf_reserved unmet grown).symm
  | unknownNode culprit first =>
      refine .unknownNode culprit fun waiting => ?_
      rw [onward]
      exact first waiting

private theorem slotsFor_builds_nil (wellFormed : builder.WellFormed schema) :
    Builds schema builder [] (AreSlots []) (schema.slotsFor builder []) := by
  rw [slotsFor]
  exact .built _ (.refl wellFormed) (fun _ => rfl) rfl

private theorem slotsFor_builds_cons {rest : List NodeId}
    (first : Builds schema builder [id] (IsSlot id) (schema.slotFor builder id))
    (others : ∀ built : builder.Grown Slot, built.1.2.WellFormed schema →
      Builds schema built.1.2 rest (AreSlots rest) (schema.slotsFor built.1.2 rest)) :
    Builds schema builder (id :: rest) (AreSlots (id :: rest))
      (schema.slotsFor builder (id :: rest)) := by
  rw [slotsFor_cons]
  generalize schema.slotFor builder id = result at first
  cases first with
  | unknownNode culprit hfirst =>
      refine .unknownNode culprit fun waiting => ?_
      rw [List.cons_append, ← List.singleton_append, hfirst]
  | built first extended walked isSlot =>
      have onward : ∀ waiting, schema.preorderFrom builder.origins (id :: rest ++ waiting) =
          schema.preorderFrom first.1.2.origins (rest ++ waiting) := by
        intro waiting
        rw [List.cons_append, ← List.singleton_append, walked]
      simp only [Except.bind]
      have below := others first extended.wellFormed
      generalize schema.slotsFor first.1.2 rest = result at below
      cases below with
      | unknownNode culprit hfirst =>
          refine .unknownNode culprit fun waiting => ?_
          rw [onward, hfirst]
      | built last extendedRest walkedRest areSlots =>
          refine .built _ (extended.trans extendedRest) ?_ ?_
          · intro waiting
            rw [onward, walkedRest]
          · have numbered : last.1.2.origins.idxOf id = first.1.2.origins.idxOf id :=
              idxOf_eq_of_grown extendedRest.grown (met_of_walked walked (by simp))
            rw [AreSlots, List.map_cons, numbered, ← isSlot, ← areSlots]

-- The three functions call each other, so one induction along them proves all three claims.
private theorem builds (schema : Schema) :
    (∀ builder id, builder.WellFormed schema →
      Builds schema builder [id] (IsSlot id) (schema.slotFor builder id)) ∧
    (∀ builder id node, builder.WellFormed schema →
      Builds schema builder node.children (IsImage schema id node)
        (schema.build builder id node)) ∧
    (∀ builder ids, builder.WellFormed schema →
      Builds schema builder ids (AreSlots ids) (schema.slotsFor builder ids)) := by
  apply slotFor.mutual_induct schema
    (fun builder id => builder.WellFormed schema →
      Builds schema builder [id] (IsSlot id) (schema.slotFor builder id))
    (fun builder id node => builder.WellFormed schema →
      Builds schema builder node.children (IsImage schema id node)
        (schema.build builder id node))
    (fun builder ids => builder.WellFormed schema →
      Builds schema builder ids (AreSlots ids) (schema.slotsFor builder ids))
  · intro builder id slot hslot wellFormed
    exact slotFor_builds_of_met wellFormed hslot
  · intro builder id new hnode wellFormed
    exact slotFor_builds_of_dangling wellFormed new hnode
  · intro builder id new node hnode below wellFormed
    have unmet := notMem_of_slot?_eq_none new
    exact slotFor_builds_of_new wellFormed new hnode (below (wellFormed.reserve unmet hnode))
  · intro builder id kind wellFormed
    rw [build]
    exact .built _ (.refl wellFormed) (fun _ => rfl) rfl
  · intro builder id value wellFormed
    rw [build]
    exact .built _ (.refl wellFormed) (fun _ => rfl) rfl
  · intro builder id name values wellFormed
    rw [build]
    exact .built _ (.refl wellFormed) (fun _ => rfl) rfl
  · intro builder id element below wellFormed
    rw [build]
    apply (below wellFormed).map
    intro slot order isSlot
    rw [IsImage, isSlot]
    rfl
  · intro builder id elements below wellFormed
    rw [build]
    apply (below wellFormed).map
    intro slots order areSlots
    rw [IsImage, areSlots]
    rfl
  · intro builder id members below wellFormed
    rw [build]
    apply (below wellFormed).map
    intro slots order areSlots
    rw [IsImage, areSlots]
    rfl
  · intro builder id members below wellFormed
    rw [build]
    apply (below wellFormed).map
    intro slots order areSlots
    rw [IsImage, areSlots]
    rfl
  · intro builder id name properties below wellFormed
    rw [build]
    apply (below wellFormed).map
    intro slots order areSlots
    rw [IsImage, areSlots, List.map_map, List.zipWith_map_right, List.zipWith_self]
    rfl
  · intro builder wellFormed
    exact slotsFor_builds_nil wellFormed
  · intro builder id rest first others wellFormed
    exact slotsFor_builds_cons (first wellFormed) others

def imageOf (schema : Schema) (id : NodeId) : Option Check :=
  (schema.node? id).map (Check.ofNode schema schema.preorder id)

def images (schema : Schema) : Arena :=
  schema.preorder.filterMap fun id => (schema.imageOf id).map (id, ·)

def firstDangling? (schema : Schema) : Option NodeId :=
  schema.preorder.find? (schema.Dangling ·)

/-- Building from the root numbers the nodes in the order of the walk and fills every slot with the
image of its node, unless some handle refers to nothing. -/
theorem slotFor_root (schema : Schema) :
    (∃ id, schema.firstDangling? = some id ∧
      schema.slotFor .empty schema.root = .error (.unknownNode id)) ∨
    (schema.firstDangling? = none ∧ ∃ result,
      schema.slotFor .empty schema.root = .ok result ∧
      result.1.1 = schema.preorder.idxOf schema.root ∧
      result.1.2.resolve = .ok schema.images) := by
  have outcome := (builds schema).1 .empty schema.root (.empty schema)
  generalize schema.slotFor .empty schema.root = run at outcome
  cases outcome with
  | unknownNode id first => exact .inl ⟨id, first [], rfl⟩
  | built result extended walked isSlot =>
      obtain ⟨⟨slot, after⟩, grown⟩ := result
      have order : after.origins = schema.preorder := by
        have all := walked []
        rw [preorderFrom_nil] at all
        exact all.symm
      have known : ∀ id ∈ schema.preorder, ∃ node, schema.node? id = some node := by
        intro id hid
        exact Option.ne_none_iff_exists'.mp (extended.wellFormed.known id (order ▸ hid))
      have slots : after.slots = schema.preorder.map schema.imageOf := by
        apply List.ext_getElem?
        intro i
        rw [List.getElem?_map]
        cases hid : schema.preorder[i]? with
        | none =>
            have outside : after.slots.length ≤ i := by
              rw [extended.wellFormed.sameLength, order]
              exact List.getElem?_eq_none_iff.mp hid
            rw [List.getElem?_eq_none outside]
            rfl
        | some id =>
            obtain ⟨node, hnode⟩ := known id (List.mem_of_getElem? hid)
            have holds := (extended.filled i id node (Nat.zero_le i) (order ▸ hid) hnode).2
            rw [holds, order]
            simp [imageOf, hnode]
      refine .inr ⟨?_, _, rfl, ?_, ?_⟩
      · rw [firstDangling?, List.find?_eq_none]
        intro id hid
        simpa using extended.wellFormed.known id (order ▸ hid)
      · rw [← order]
        exact isSlot
      · have whole : after = ⟨schema.preorder, schema.preorder.map schema.imageOf⟩ := by
          cases after
          simp_all
        change after.resolve = .ok schema.images
        rw [whole]
        apply resolve_of_filled
        intro id hid
        obtain ⟨node, hnode⟩ := known id hid
        simp [imageOf, hnode]

end Schema
end Conform
