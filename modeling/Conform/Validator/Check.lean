import Conform.Schema.Basic

/-!
Checks: the nodes a schema uses in a form that is ready to run. A check refers to others by slot,
its position in the order in which the nodes were met, and holds every description that its messages
need.
-/

namespace Conform

abbrev Slot := Nat

structure PropertyCheck where
  key : String
  slot : Slot
  isOptional : Bool
  /-- What is missing when the property is. -/
  expected : String
deriving DecidableEq

inductive Check where
  | valueType (kind : ValueKind)
  | literal (value : Scalar) (rendered : String)
  | object (name : String) (properties : List PropertyCheck)
  | array (element : Slot)
  | tuple (elements : List Slot) (rendered : String)
  | union (members : List Slot) (possibilities : String)
  /-- `declared` are the keys that the intersection knows. -/
  | intersection (members : List Slot) (declared : List String)
  | enum (name : String) (values : List Scalar) (listed : String)
deriving DecidableEq

namespace Check

def combined : Check → List Slot
  | .union members _ => members
  | .intersection members _ => members
  | _ => []

end Check

/-- Checks by slot, each with the node that it is the check of. -/
abbrev Arena := List (NodeId × Check)

end Conform
