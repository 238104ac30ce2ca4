import Conform.Json.Basic

namespace Conform

inductive MismatchKind where
  | valueType
  | literal
  | union
  | tuple
  | property
  | object
  | array
  | enum
deriving DecidableEq

namespace MismatchKind

def all : List MismatchKind :=
  [.valueType, .literal, .union, .tuple, .property, .object, .array, .enum]

def name : MismatchKind → String
  | .valueType => "ValueTypeMismatch"
  | .literal => "LiteralMismatch"
  | .union => "UnionMismatch"
  | .tuple => "TupleMismatch"
  | .property => "PropertyMismatch"
  | .object => "ObjectMismatch"
  | .array => "ArrayMismatch"
  | .enum => "EnumMismatch"

end MismatchKind

def rootPath : List String := ["Base"]

def elementPath (path : List String) (i : Nat) : List String := path ++ [s!"[{i}]"]

def objectPath (path : List String) (name : String) : List String := path ++ [s!"({name})"]

def propertyPath (path : List String) (key : String) : List String := path ++ [key]

/-- One mismatch. The path leads from the root of the value to it: `Base`, `(Name)` on entering an
object of that name, then a key, and `[i]` for the element of an array or tuple. -/
structure Mismatch where
  message : String
  path : List String
  kind : MismatchKind
deriving DecidableEq

namespace Mismatch

def pathText (path : List String) : String := ".".intercalate path

def saying (path : List String) (kind : MismatchKind) (text : String) : Mismatch :=
  ⟨pathText path ++ text, path, kind⟩

def line (mismatch : Mismatch) : String := s!"  [{mismatch.kind.name}] {mismatch.message}"

def listText (mismatches : List Mismatch) : String := "\n".intercalate (mismatches.map line)

def countOf (kind : MismatchKind) (mismatches : List Mismatch) : Nat :=
  mismatches.countP (·.kind = kind)

def toJson (mismatch : Mismatch) : Json :=
  .object [("message", .string mismatch.message), ("path", Json.strings mismatch.path),
    ("kind", .string mismatch.kind.name)]

end Mismatch

/-- A cyclic object was entered again more often than allowed: `count` times along one path. -/
structure LimitReached where
  count : Nat
deriving DecidableEq

def LimitReached.message (reached : LimitReached) : String :=
  s!"circular dependency limit reached after {reached.count} repeated object entries"

end Conform
