import Conform.Validator.Check
import Conform.Validator.Mismatch

namespace Conform

/-- The object checks entered on the way here, how often one of them was entered again, and how
often that may happen; a limit of zero allows any number. -/
structure Guard where
  entered : List Slot
  repeats : Nat
  limit : Nat
deriving DecidableEq

namespace Guard

def start (limit : Nat) : Guard := ⟨[], 0, limit⟩

/-- Enters an object. What lies beside the object never sees the entry. -/
def enter (guard : Guard) (slot : Slot) : Except LimitReached Guard :=
  if slot ∈ guard.entered then
    let repeats := guard.repeats + 1
    if 0 < guard.limit ∧ guard.limit < repeats then .error ⟨repeats⟩
    else .ok { guard with repeats }
  else .ok { guard with entered := slot :: guard.entered }

end Guard

namespace ValueKind

def noun : ValueKind → String
  | .string => "a string"
  | .number => "a number"
  | .boolean => "a boolean"
  | .function => "a function"
  | .object => "an object"
  | .null => "null"
  | .undefined => "undefined"
  | .any => "anything"

end ValueKind
end Conform
