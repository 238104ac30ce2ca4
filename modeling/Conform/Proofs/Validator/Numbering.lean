import Conform.Proofs.Validator.Calls
import Conform.Proofs.Validator.Compilation
import Mathlib.Data.List.NodupEquivFin

namespace Conform

open Relation

def Check.slots : Check → List Slot
  | .object _ properties => properties.map (·.slot)
  | .array element => [element]
  | .tuple elements _ => elements
  | .union members _ => members
  | .intersection members _ => members
  | .valueType _ | .literal _ _ | .enum _ _ _ => []

theorem Call.MayMake.exists_slot {checks : List Check} {call next : Call}
    (h : call.MayMake checks next) :
    ∃ check, checks[call.slot]? = some check ∧ next.slot ∈ check.slots := by
  cases h with
  | item hcheck hvalue hitem => exact ⟨_, hcheck, List.mem_cons_self⟩
  | position hcheck hvalue hlength helement hitem =>
      exact ⟨_, hcheck, List.mem_of_getElem? helement⟩
  | member hcheck _ => exact ⟨_, hcheck, by simp [Call.member, Check.slots]⟩
  | part hcheck hm => exact ⟨_, hcheck, hm⟩
  | field hcheck hvalue henter hproperty hfield =>
      exact ⟨_, hcheck, List.mem_map_of_mem (f := (·.slot)) hproperty⟩

namespace Schema

/-- A property and its check say the same; `IsAt` tells which slots stand for a handle. -/
structure ReflectsProperty (schema : Schema) (IsAt : NodeId → Slot → Prop)
    (entry : String × Property) (check : PropertyCheck) : Prop where
  key : check.key = entry.1
  slot : IsAt entry.2.definition check.slot
  isOptional : check.isOptional = entry.2.isOptional
  expected : check.expected = schema.render entry.2.definition

/-- A node and a check say the same, and the texts of the check are those that the schema renders;
`IsAt` tells which slots stand for a handle. -/
inductive Reflects (schema : Schema) (IsAt : NodeId → Slot → Prop) (id : NodeId) :
    Node → Check → Prop
  | valueType (kind : ValueKind) : Reflects schema IsAt id (.valueType kind) (.valueType kind)
  | literal (value : Scalar) :
      Reflects schema IsAt id (.literal value) (.literal value value.literal)
  | object {name : String} {properties : List (String × Property)} {checks : List PropertyCheck}
      (each : List.Forall₂ (schema.ReflectsProperty IsAt) properties checks) :
      Reflects schema IsAt id (.object name properties) (.object name checks)
  | array {element : NodeId} {slot : Slot} (isAt : IsAt element slot) :
      Reflects schema IsAt id (.array element) (.array slot)
  | tuple {elements : List NodeId} {slots : List Slot} (each : List.Forall₂ IsAt elements slots) :
      Reflects schema IsAt id (.tuple elements) (.tuple slots (schema.render id))
  | union {members : List NodeId} {slots : List Slot} (each : List.Forall₂ IsAt members slots) :
      Reflects schema IsAt id (.union members)
        (.union slots (", ".intercalate (members.map schema.render)))
  | intersection {members : List NodeId} {slots : List Slot}
      (each : List.Forall₂ IsAt members slots) :
      Reflects schema IsAt id (.intersection members)
        (.intersection slots (schema.declaredKeys id members))
  | enum (name : String) (values : List Scalar) :
      Reflects schema IsAt id (.enum name values) (.enum name values (Scalar.list values))

variable {schema : Schema} {validator : Validator} {IsAt : NodeId → Slot → Prop} {id : NodeId}
  {node : Node} {check : Check}

theorem slots_ofNode (schema : Schema) (order : List NodeId) (id : NodeId) (node : Node) :
    (Check.ofNode schema order id node).slots = node.children.map order.idxOf := by
  cases node with
  | object name properties =>
      rw [Check.ofNode, Check.slots, Node.children, List.map_map, List.map_map]
      rfl
  | _ => rfl

theorem reflects_ofNode {order : List NodeId}
    (numbered : ∀ child ∈ node.children, IsAt child (order.idxOf child)) :
    schema.Reflects IsAt id node (Check.ofNode schema order id node) := by
  have ofList : ∀ {ids : List NodeId}, ids ⊆ node.children →
      List.Forall₂ IsAt ids (ids.map order.idxOf) := by
    intro ids hids
    rw [List.forall₂_map_right_iff, List.forall₂_same]
    exact fun child hchild => numbered child (hids hchild)
  cases node with
  | valueType kind => exact .valueType kind
  | literal value => exact .literal value
  | enum name values => exact .enum name values
  | array element => exact .array (numbered element List.mem_cons_self)
  | tuple elements => exact .tuple (ofList (List.Subset.refl _))
  | union members => exact .union (ofList (List.Subset.refl _))
  | intersection members => exact .intersection (ofList (List.Subset.refl _))
  | object name properties =>
      refine .object ?_
      rw [List.forall₂_map_right_iff, List.forall₂_same]
      intro entry hentry
      exact ⟨rfl, numbered _ (List.mem_map_of_mem hentry), rfl, rfl⟩

def IsNumber {size : Nat} (nodeAt : Fin size ≃ {id // schema.Reachable id}) (id : NodeId)
    (slot : Slot) : Prop :=
  ∃ below : slot < size, (nodeAt ⟨slot, below⟩).1 = id

theorem exists_nodeAt {size : Nat} (hsize : schema.preorder.length = size) :
    ∃ nodeAt : Fin size ≃ {id // schema.Reachable id},
      ∀ id slot, IsNumber nodeAt id slot ↔ schema.preorder[slot]? = some id := by
  subst hsize
  refine ⟨(schema.nodup_preorder.getEquiv _).trans
    (Equiv.subtypeEquivRight fun _ => mem_preorder_iff), fun id slot => ?_⟩
  rw [List.getElem?_eq_some_iff]
  rfl

theorem slotCount_of_compile (compiled : schema.compile = .ok validator) :
    validator.slotCount = schema.preorder.length := by
  obtain ⟨closed, -, -, hchecks, -⟩ := holds_images_of_compile compiled
  rw [Validator.slotCount, hchecks, Arena.checks, List.length_map, images,
    List.filterMap_length_eq_length]
  intro id hid
  obtain ⟨node, hnode⟩ := Option.ne_none_iff_exists'.mp (closed id (mem_preorder_iff.mp hid))
  simp [imageOf, hnode]

theorem slot_lt_of_compile (compiled : schema.compile = .ok validator)
    (hcheck : check ∈ validator.checks) {slot : Slot} (hslot : slot ∈ check.slots) :
    slot < validator.slotCount := by
  obtain ⟨closed, -, -, hchecks, -⟩ := holds_images_of_compile compiled
  rw [hchecks, Arena.checks] at hcheck
  obtain ⟨entry, hentry, rfl⟩ := List.mem_map.mp hcheck
  obtain ⟨i, hi⟩ := List.mem_iff_getElem?.mp hentry
  obtain ⟨node, hid, hnode, himage⟩ := exists_of_getElem?_images closed hi
  rw [himage, slots_ofNode] at hslot
  obtain ⟨child, hchild, rfl⟩ := List.mem_map.mp hslot
  rw [slotCount_of_compile compiled]
  have refers := refers_of_node hnode hchild
  exact List.idxOf_lt_length_of_mem (mem_preorder_of_refers (List.mem_of_getElem? hid) refers)

theorem exists_check_of_call (compiled : schema.compile = .ok validator) {value : Json}
    {limit : Nat} {call : Call}
    (made : ReflTransGen (Call.MayMake validator.checks) (.start validator.root value limit) call) :
    ∃ check, validator.checks[call.slot]? = some check := by
  suffices below : call.slot < validator.slotCount from
    ⟨_, List.getElem?_eq_getElem below⟩
  induction made with
  | refl =>
      obtain ⟨-, -, -, -, hroot, -⟩ := holds_images_of_compile compiled
      rw [slotCount_of_compile compiled]
      change validator.root < _
      rw [hroot]
      exact List.idxOf_lt_length_of_mem schema.root_mem_preorder
  | tail _ hnext _ =>
      obtain ⟨check, hcheck, hslot⟩ := hnext.exists_slot
      exact slot_lt_of_compile compiled (List.mem_of_getElem? hcheck) hslot

/-- The slots of a validator number the nodes that the root reaches, each of them once, and the
check in a slot says what its node says: every handle is replaced by the number of its node and
every text is the one that the schema renders. No check refers to a slot that is not there, so no
call of a run meets one. -/
theorem compile_reflects (compiled : schema.compile = .ok validator) :
    ∃ nodeAt : Fin validator.slotCount ≃ {id // schema.Reachable id},
      IsNumber nodeAt schema.root validator.root ∧
      validator.rootType = schema.render schema.root ∧
      (∀ slot, ∃ node check, schema.node? (nodeAt slot).1 = some node ∧
        validator.checks[slot.1]? = some check ∧
        schema.Reflects (IsNumber nodeAt) (nodeAt slot).1 node check) ∧
      (∀ check ∈ validator.checks, ∀ slot ∈ check.slots, slot < validator.slotCount) ∧
      ∀ value limit call,
        ReflTransGen (Call.MayMake validator.checks) (.start validator.root value limit) call →
          ∃ check, validator.checks[call.slot]? = some check := by
  obtain ⟨nodeAt, isNumber_iff⟩ := exists_nodeAt (slotCount_of_compile compiled).symm
  obtain ⟨closed, -, -, -, hroot, hrootType⟩ := holds_images_of_compile compiled
  have numbered : ∀ {id}, schema.Reachable id → IsNumber nodeAt id (schema.preorder.idxOf id) :=
    fun reached => (isNumber_iff _ _).mpr (getElem?_preorder_idxOf reached)
  refine ⟨nodeAt, hroot ▸ numbered (Reachable.root schema), hrootType, fun slot => ?_,
    fun check hcheck slot hslot => slot_lt_of_compile compiled hcheck hslot,
    fun value limit call made => exists_check_of_call compiled made⟩
  obtain ⟨node, hnode, hcheck⟩ := exists_check_of_compile compiled (nodeAt slot).2
  have here : schema.preorder.idxOf (nodeAt slot).1 = slot :=
    idxOf_preorder_of_getElem? ((isNumber_iff _ _).mp ⟨slot.2, rfl⟩)
  refine ⟨node, _, hnode, here ▸ hcheck, reflects_ofNode fun child hchild => numbered ?_⟩
  exact (nodeAt slot).2.child (refers_of_node hnode hchild)

theorem namedLinks_reflects : ∃ validator, namedLinks.compile = .ok validator ∧
    validator.rootType = "(Link & Named)" ∧
    ∃ nodeAt : Fin validator.slotCount ≃ {id // namedLinks.Reachable id},
      IsNumber nodeAt ⟨0⟩ validator.root ∧
      ∀ slot, ∃ node check, namedLinks.node? (nodeAt slot).1 = some node ∧
        validator.checks[slot.1]? = some check ∧
        namedLinks.Reflects (IsNumber nodeAt) (nodeAt slot).1 node check := by
  obtain ⟨validator, compiled⟩ := namedLinks_compiles
  obtain ⟨nodeAt, isNumber, rootType, reflects, -⟩ := compile_reflects compiled
  have rendered : namedLinks.render ⟨0⟩ = "(Link & Named)" := by cbv
  exact ⟨validator, compiled, rootType.trans rendered, nodeAt, isNumber, reflects⟩

end Schema
end Conform
