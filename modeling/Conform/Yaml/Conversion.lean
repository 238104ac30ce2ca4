import Conform.Validator.Mismatch
import Conform.Yaml.Outline

namespace Conform

inductive ConversionFault where
  | notFinite (path : List String) (n : YamlNumber)
  | unsupportedKey (path : List String) (key : Yaml)
  | repeatedKey (path : List String) (key : String)

def ConversionFault.message : ConversionFault → String
  | .notFinite path n => s!"{Mismatch.pathText path}: {n.text} has no JSON representation"
  | .unsupportedKey path key => s!"{Mismatch.pathText path}: unsupported key {key.outline}"
  | .repeatedKey path key => s!"{Mismatch.pathText path}: key '{key}' appears more than once"

namespace YamlNumber

def signed? : YamlNumber → Option Int
  | .finite n => n.signed?
  | _ => none

def unsigned? : YamlNumber → Option Nat
  | .finite n => n.unsigned?
  | _ => none

def float? : YamlNumber → Option Binary64
  | .finite n => some n.toBinary64
  | _ => none

/-- The number as JSON has it: an integer if it is one of 64 bits, with or without a sign, and
otherwise binary. -/
def jsonNumber? (n : YamlNumber) : Option Number :=
  match n.signed? with
  | some i => some (.ofInt i)
  | none =>
    match n.unsigned? with
    | some i => some (.ofInt i)
    | none => n.float?.map .float

theorem jsonNumber?_finite (n : Number) : jsonNumber? (.finite n) = some n := by
  rw [jsonNumber?, signed?, unsigned?, float?]
  cases n with
  | float x => rfl
  | int n inRange =>
    rw [Number.signed?, Number.unsigned?]
    by_cases small : n < 0x8000000000000000
    · rw [if_pos small]
      exact congrArg some (Number.ofInt_of_inRange inRange)
    · have nonneg : 0 ≤ n := by omega
      rw [if_neg small, if_pos nonneg]
      simp only [Int.toNat_of_nonneg nonneg, Number.ofInt_of_inRange inRange]

end YamlNumber

namespace Yaml

def keyText? : Yaml → Option String
  | .string s => some s
  | .number n => some n.text
  | .bool b => some (toString b)
  | _ => none

mutual

def convert (path : List String) : Yaml → Except ConversionFault Json
  | .null => return .null
  | .bool b => return .bool b
  | .number n =>
    match n.jsonNumber? with
    | some n => return .number n
    | none => throw (.notFinite path n)
  | .string s => return .string s
  | .sequence items => .array <$> convertItems path 0 items
  | .mapping entries => .object <$> convertEntries path [] entries
  | .tagged _ value => convert path value

def convertItems (path : List String) (index : Nat) : List Yaml → Except ConversionFault (List Json)
  | [] => return []
  | item :: rest => do
    let item ← convert (elementPath path index) item
    return item :: (← convertItems path (index + 1) rest)

/-- An entry is refused for its key's kind first, then for its value, then for repeating a text that
is among those `before`. -/
def convertEntries (path before : List String) :
    List (Yaml × Yaml) → Except ConversionFault (List (String × Json))
  | [] => return []
  | (key, value) :: rest => do
    match key.keyText? with
    | none => throw (.unsupportedKey path key)
    | some text =>
      let value ← convert (propertyPath path text) value
      if text ∈ before then throw (.repeatedKey path text)
      return (text, value) :: (← convertEntries path (text :: before) rest)

end

def toJson (value : Yaml) : Except ConversionFault Json := convert rootPath value

end Yaml
end Conform
