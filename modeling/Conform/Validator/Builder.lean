import Conform.Schema.Rendering
import Conform.Validator.Check
import Conform.Validator.DeclaredKeys
import Conform.Validator.Fault

/-!
Building the checks of the nodes that a schema uses. A node gets its slot when it is first met,
before the nodes it refers to are built, so what leads back to it finds the slot reserved. The slot
is filled once the check behind it is there.
-/

namespace Conform

structure Builder where
  origins : List NodeId
  /-- The check of each slot, none while it is being built. -/
  slots : List (Option Check)
deriving DecidableEq

namespace Builder

def empty : Builder := ⟨[], []⟩

def slot? (builder : Builder) (id : NodeId) : Option Slot := builder.origins.idxOf? id

def reserve (builder : Builder) (id : NodeId) : Builder :=
  ⟨builder.origins ++ [id], builder.slots ++ [none]⟩

def fill (builder : Builder) (slot : Slot) (check : Check) : Builder :=
  { builder with slots := builder.slots.set slot (some check) }

private def settle : NodeId × Option Check → Except BuildFault (NodeId × Check)
  | (origin, some check) => .ok (origin, check)
  | (origin, none) => .error (.unresolved origin)

/-- The checks, if no slot was left empty. -/
def resolve (builder : Builder) : Except BuildFault Arena :=
  (builder.origins.zip builder.slots).mapM settle

theorem resolve_of_filled {origins : List NodeId} {checkOf : NodeId → Option Check}
    (filled : ∀ id ∈ origins, (checkOf id).isSome) :
    resolve ⟨origins, origins.map checkOf⟩ =
      .ok (origins.filterMap fun id => (checkOf id).map (id, ·)) := by
  unfold resolve
  induction origins with
  | nil => rfl
  | cons id rest ih =>
    obtain ⟨check, hcheck⟩ := Option.isSome_iff_exists.1 (filled id (by simp))
    have hrest := ih fun other hother => filled other (List.mem_cons_of_mem _ hother)
    simp only [List.map_cons, List.zip_cons_cons, List.mapM_cons, hcheck, settle, hrest,
      List.filterMap_cons, Option.map_some]
    rfl

theorem notMem_of_slot?_eq_none {builder : Builder} {id : NodeId}
    (h : builder.slot? id = none) : id ∉ builder.origins := by
  simpa [slot?] using h

/-- What building gives, with the slots there are then: none of those before is lost. -/
abbrev Grown (before : Builder) (α : Type) :=
  { built : α × Builder // before.origins <+: built.2.origins }

def Grown.map {before : Builder} (f : α → β) (built : before.Grown α) : before.Grown β :=
  ⟨(f built.1.1, built.1.2), built.2⟩

end Builder

namespace Schema

theorem unvisited_grown_le (schema : Schema) {before : Builder} {α : Type}
    (built : before.Grown α) :
    schema.unvisited built.1.2.origins ≤ schema.unvisited before.origins :=
  unvisited_le built.2.subset

def propertyCheck (schema : Schema) : String × Property → Slot → PropertyCheck
  | (key, property), slot =>
    { key, slot, isOptional := property.isOptional, expected := schema.render property.definition }

mutual

def slotFor (schema : Schema) (builder : Builder) (id : NodeId) :
    Except BuildFault (builder.Grown Slot) :=
  match _ : builder.slot? id with
  | some slot => .ok ⟨(slot, builder), List.prefix_rfl⟩
  | none =>
    match _ : schema.node? id with
    | none => .error (.unknownNode id)
    | some node => do
      let slot := builder.slots.length
      let below ← schema.build (builder.reserve id) id node
      return ⟨(slot, below.1.2.fill slot below.1.1), (List.prefix_append ..).trans below.2⟩
termination_by (schema.unvisited builder.origins, 0, 0)
decreasing_by
  exact Prod.Lex.left _ _ (unvisited_append_lt ‹_› (Builder.notMem_of_slot?_eq_none ‹_›))

def slotsFor (schema : Schema) (builder : Builder) :
    List NodeId → Except BuildFault (builder.Grown (List Slot))
  | [] => .ok ⟨([], builder), List.prefix_rfl⟩
  | id :: rest => do
    let first ← schema.slotFor builder id
    let others ← schema.slotsFor first.1.2 rest
    return ⟨(first.1.1 :: others.1.1, others.1.2), first.2.trans others.2⟩
termination_by ids => (schema.unvisited builder.origins, 1, ids.length)
decreasing_by
  · exact Prod.Lex.right _ (Prod.Lex.left _ _ Nat.zero_lt_one)
  · rcases Nat.lt_or_eq_of_le (unvisited_grown_le schema first) with less | same
    · exact Prod.Lex.left _ _ less
    · rw [same]
      exact Prod.Lex.right _ (Prod.Lex.right _ (Nat.lt_succ_self _))

def build (schema : Schema) (builder : Builder) (id : NodeId) :
    Node → Except BuildFault (builder.Grown Check)
  | .valueType kind => .ok ⟨(.valueType kind, builder), List.prefix_rfl⟩
  | .literal value => .ok ⟨(.literal value value.literal, builder), List.prefix_rfl⟩
  | .enum name values =>
    .ok ⟨(.enum name values (Scalar.list values), builder), List.prefix_rfl⟩
  | .array element => (schema.slotFor builder element).map (Builder.Grown.map .array)
  | .tuple elements =>
    (schema.slotsFor builder elements).map
      (Builder.Grown.map fun slots => .tuple slots (schema.render id))
  | .union members =>
    (schema.slotsFor builder members).map
      (Builder.Grown.map fun slots =>
        .union slots (", ".intercalate (members.map schema.render)))
  | .intersection members =>
    (schema.slotsFor builder members).map
      (Builder.Grown.map fun slots => .intersection slots (schema.declaredKeys id members))
  | .object name properties =>
    (schema.slotsFor builder (properties.map (·.2.definition))).map
      (Builder.Grown.map fun slots =>
        .object name (List.zipWith schema.propertyCheck properties slots))
termination_by (schema.unvisited builder.origins, 2, 0)
decreasing_by all_goals exact Prod.Lex.right _ (Prod.Lex.left _ _ (by decide))

end

end Schema
end Conform
