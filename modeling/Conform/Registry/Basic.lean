import Conform.Registry.Fault
import Conform.Validator.Compilation

namespace Conform

structure IdMap (α : Type) where
  entries : List (SchemaId × α)
  distinct : (entries.map (·.1)).Nodup

namespace IdMap

def empty : IdMap α := ⟨[], List.Pairwise.nil⟩

def get? (map : IdMap α) (id : String) : Option α :=
  (map.entries.find? (·.1.text == id)).map (·.2)

def size (map : IdMap α) : Nat := map.entries.length

/-- Puts an entry in the place of the one under its id, or at the end if there is none. -/
def setEntry (id : SchemaId) (a : α) : List (SchemaId × α) → List (SchemaId × α)
  | [] => [(id, a)]
  | (other, old) :: rest =>
    if other = id then (id, a) :: rest else (other, old) :: setEntry id a rest

theorem map_fst_setEntry (id : SchemaId) (a : α) (entries : List (SchemaId × α)) :
    (setEntry id a entries).map (·.1) =
      if id ∈ entries.map (·.1) then entries.map (·.1) else entries.map (·.1) ++ [id] := by
  induction entries with
  | nil => rfl
  | cons entry rest ih =>
    rw [setEntry]
    split
    · rename_i h
      simp [h]
    · rename_i h
      rw [List.map_cons, List.map_cons, ih]
      simp only [List.mem_cons, Ne.symm h, false_or]
      split <;> rfl

def insert (map : IdMap α) (id : SchemaId) (a : α) : IdMap α where
  entries := setEntry id a map.entries
  distinct := by
    rw [map_fst_setEntry]
    split
    · exact map.distinct
    · rename_i h
      refine List.nodup_append.mpr ⟨map.distinct, by simp, ?_⟩
      rintro other hother _ hid rfl
      rw [List.mem_singleton.mp hid] at hother
      exact h hother

end IdMap

structure Registry where
  schemas : IdMap Schema
  validators : IdMap Validator

namespace Registry

def empty : Registry := ⟨IdMap.empty, IdMap.empty⟩

/-- The ids of the schemas, in increasing order. -/
def ids (registry : Registry) : List SchemaId :=
  (registry.schemas.entries.map (·.1)).mergeSort fun a b => decide (a.text ≤ b.text)

def size (registry : Registry) : Nat := registry.schemas.size

structure Registration where
  validator : Validator
  /-- The id was in use; what stood under it is gone. -/
  replaced : Bool

def register (registry : Registry) (id : SchemaId) (schema : Schema) :
    Except RegistryFault Registration × Registry :=
  match schema.compile with
  | .error fault => (.error (.build id fault), registry)
  | .ok validator =>
    (.ok ⟨validator, (registry.schemas.get? id.text).isSome⟩,
      ⟨registry.schemas.insert id schema, registry.validators.insert id validator⟩)

def schema (registry : Registry) (id : String) : Except RegistryFault Schema :=
  match registry.schemas.get? id with
  | some schema => .ok schema
  | none => .error (.missingSchema id)

def validator (registry : Registry) (id : String) : Except RegistryFault Validator :=
  match registry.validators.get? id with
  | some validator => .ok validator
  | none => .error (.missingValidator id)

def validate (registry : Registry) (id : String) (value : Json) (limit : Nat) :
    Except RegistryFault (List Mismatch) := do
  ((← registry.validator id).validate value limit).mapError .circularLimit

def assert (registry : Registry) (id : String) (value : Json) (limit : Nat) :
    Except RegistryFault Unit := do
  ((← registry.validator id).assert value limit).mapError .assertion

def listing (registry : Registry) : Except RegistryFault String := do
  let lines ← registry.ids.mapM fun id => do
    return s!"{id}\t{(← registry.validator id.text).rootType}\n"
  return String.join lines

end Registry
end Conform
