import Conform.Decoding.Fault

/-!
Reading records. A record is written as a mapping of its fields, in any order and among entries that
are ignored, or as a sequence of its fields in their declared order. Fields of a mapping are read as
they come; only then is a missing one noticed.
-/

namespace Conform.Decoding

def text : Decoder String
  | .string s => .ok s
  | other => .error (.invalidType other "a string")

def boolean : Decoder Bool
  | .bool b => .ok b
  | other => .error (.invalidType other "a boolean")

def listOf (read : Decoder α) : Decoder (List α)
  | .sequence items => items.mapM read
  | other => .error (.invalidType other "a sequence")

/-- Which of the named fields an entry is for; a natural number names a field by its position. -/
def fieldIndex? (names : List String) : Decoder (Option Nat)
  | .string s => .ok (names.idxOf? s)
  | .number (.finite (.int n h)) =>
    if 0 ≤ n then .ok (if n.toNat < names.length then some n.toNat else none)
    else .error (.invalidType (.number (.finite (.int n h))) "field identifier")
  | other => .error (.invalidType other "field identifier")

def setOnce (name : String) (current : Option α) (read : Except DecodeFault α) :
    Except DecodeFault (Option α) :=
  if current.isSome then .error (.duplicateField name) else read.map some

def required (name : String) : Option α → Except DecodeFault α
  | some value => .ok value
  | none => .error (.missingField name)

structure RecordField (α : Type) where
  name : String
  read : Decoder α
  absent : Option α := none

namespace RecordField

def finish (field : RecordField α) (found : Option α) : Except DecodeFault α :=
  required field.name (found.or field.absent)

def item (field : RecordField α) (expected : String) (position : Nat) :
    List Yaml → Except DecodeFault α
  | value :: _ => field.read value
  | [] =>
    match field.absent with
    | some value => .ok value
    | none => .error (.invalidLength position expected)

end RecordField

def noneBehind (fields : Nat) (tooMany : String) (items : List Yaml) : Except DecodeFault Unit :=
  if fields < items.length then .error (.invalidLength items.length tooMany) else .ok ()

def entries₁ (a : RecordField α) (entries : List (Yaml × Yaml)) : Except DecodeFault α := do
  let found ← entries.foldlM (fun x (key, value) => do
    match ← fieldIndex? [a.name] key with
    | some 0 => setOnce a.name x (a.read value)
    | _ => return x) none
  a.finish found

def entries₂ (a : RecordField α) (b : RecordField β) (entries : List (Yaml × Yaml)) :
    Except DecodeFault (α × β) := do
  let (x, y) ← entries.foldlM (fun (x, y) (key, value) => do
    match ← fieldIndex? [a.name, b.name] key with
    | some 0 => return (← setOnce a.name x (a.read value), y)
    | some 1 => return (x, ← setOnce b.name y (b.read value))
    | _ => return (x, y)) (none, none)
  return (← a.finish x, ← b.finish y)

def entries₃ (a : RecordField α) (b : RecordField β) (c : RecordField γ)
    (entries : List (Yaml × Yaml)) : Except DecodeFault (α × β × γ) := do
  let (x, y, z) ← entries.foldlM (fun (x, y, z) (key, value) => do
    match ← fieldIndex? [a.name, b.name, c.name] key with
    | some 0 => return (← setOnce a.name x (a.read value), y, z)
    | some 1 => return (x, ← setOnce b.name y (b.read value), z)
    | some 2 => return (x, y, ← setOnce c.name z (c.read value))
    | _ => return (x, y, z)) (none, none, none)
  return (← a.finish x, ← b.finish y, ← c.finish z)

def items₁ (a : RecordField α) (expected tooMany : String) (items : List Yaml) :
    Except DecodeFault α := do
  let x ← a.item expected 0 items
  noneBehind 1 tooMany items
  return x

def items₂ (a : RecordField α) (b : RecordField β) (expected tooMany : String) (items : List Yaml) :
    Except DecodeFault (α × β) := do
  let x ← a.item expected 0 items
  let y ← b.item expected 1 items.tail
  noneBehind 2 tooMany items
  return (x, y)

def items₃ (a : RecordField α) (b : RecordField β) (c : RecordField γ)
    (expected tooMany : String) (items : List Yaml) : Except DecodeFault (α × β × γ) := do
  let x ← a.item expected 0 items
  let y ← b.item expected 1 items.tail
  let z ← c.item expected 2 items.tail.tail
  noneBehind 3 tooMany items
  return (x, y, z)

def fieldsInSequence (fields : Nat) : String :=
  if fields = 1 then "1 element in sequence" else s!"{fields} elements in sequence"

def fewerInArray : String := "fewer elements in array"

/-- One of several names, bare or as a mapping of the name to null. With `emptyAsNull` an empty
mapping stands for null. -/
def variant (emptyAsNull : Bool) (name : α → String) (all : List α) : Decoder α := fun value => do
  let known := all.map name
  let find := fun text =>
    match all.find? (name · == text) with
    | some found => Except.ok found
    | none => .error (.unknownVariant text known)
  let identify : Decoder α
    | .string text => find text
    | .number (.finite (.int n h)) =>
      match if 0 ≤ n then all[n.toNat]? else none with
      | some found => .ok found
      | none => .error (.invalidValue (.number (.finite (.int n h))) "variant index")
    | other => .error (.invalidType other "variant identifier")
  match value with
  | .string text => find text
  | .mapping [(key, content)] =>
    let found ← identify key
    match content with
    | .null => return found
    | .mapping [] =>
      if emptyAsNull then return found else throw (.invalidType (.mapping []) "unit")
    | other => throw (.invalidType other "unit")
  | .mapping entries => throw (.invalidValue (.mapping entries) "map with a single key")
  | other => throw (.invalidType other "string or map")

end Conform.Decoding
