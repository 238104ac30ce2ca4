import Conform.Json.Basic
import Conform.Numeric.Notation

/-!
Schema graphs: nodes in an arena, which refer to each other by handle. Handles may form cycles, and
a schema that was read from a document may hold handles that refer to nothing.
-/

namespace Conform

structure NodeId where
  index : Nat
deriving DecidableEq

instance : ToString NodeId := ⟨fun id => s!"#{id.index}"⟩

inductive ValueKind where
  | string
  | number
  | boolean
  | null
  | undefined
  | any
  | function
  /-- Objects and arrays alike. -/
  | object
deriving DecidableEq

namespace ValueKind

def name : ValueKind → String
  | .string => "string"
  | .number => "number"
  | .boolean => "boolean"
  | .null => "null"
  | .undefined => "undefined"
  | .any => "any"
  | .function => "Function"
  | .object => "object"

/-- Whether a value is of a kind. Documents hold no functions, and a value that is there is never
undefined. -/
def admits : ValueKind → Json → Bool
  | .any, _ => true
  | .string, .string _ => true
  | .number, .number _ => true
  | .boolean, .bool _ => true
  | .null, .null => true
  | .object, .object _ => true
  | .object, .array _ => true
  | _, _ => false

end ValueKind

inductive Scalar where
  | string (s : String)
  | number (n : Number)
deriving DecidableEq

namespace Scalar

/-- Strict equality with a value: never across types. -/
def admits : Scalar → Json → Bool
  | .string expected, .string actual => expected == actual
  | .number expected, .number actual => expected.agrees actual
  | _, _ => false

instance : ToString Scalar where
  toString
    | .string s => s
    | .number (.int n _) => toString n
    | .number (.float x) => x.plain

def literal : Scalar → String
  | .string s => s!"'{s}'"
  | .number n => toString (Scalar.number n)

def list (values : List Scalar) : String := ",".intercalate (values.map toString)

end Scalar

structure Property where
  definition : NodeId
  isOptional : Bool := false
deriving DecidableEq

inductive Node where
  | valueType (kind : ValueKind)
  | literal (value : Scalar)
  /-- An object with these properties, in declaration order, and no others. -/
  | object (name : String) (properties : List (String × Property))
  | array (element : NodeId)
  | tuple (elements : List NodeId)
  /-- Any one of the members, tried in order. -/
  | union (members : List NodeId)
  | intersection (members : List NodeId)
  | enum (name : String) (values : List Scalar)
deriving DecidableEq

namespace Node

inductive Kind where
  | valueType
  | literal
  | object
  | array
  | tuple
  | union
  | intersection
  | enum
deriving DecidableEq

namespace Kind

def all : List Kind :=
  [.valueType, .literal, .object, .array, .tuple, .union, .intersection, .enum]

def name : Kind → String
  | .valueType => "value_type"
  | .literal => "literal"
  | .object => "object"
  | .array => "array"
  | .tuple => "tuple"
  | .union => "union"
  | .intersection => "intersection"
  | .enum => "enum"

end Kind

def kind : Node → Kind
  | .valueType _ => .valueType
  | .literal _ => .literal
  | .object _ _ => .object
  | .array _ => .array
  | .tuple _ => .tuple
  | .union _ => .union
  | .intersection _ => .intersection
  | .enum _ _ => .enum

def children : Node → List NodeId
  | .object _ properties => properties.map (·.2.definition)
  | .array element => [element]
  | .tuple elements => elements
  | .union members => members
  | .intersection members => members
  | .valueType _ | .literal _ | .enum _ _ => []

end Node

structure Schema where
  root : NodeId
  nodes : List Node
deriving DecidableEq

namespace Schema

def node? (schema : Schema) (id : NodeId) : Option Node := schema.nodes[id.index]?

theorem index_lt_of_node?_eq_some {schema : Schema} {id : NodeId} {node : Node}
    (h : schema.node? id = some node) : id.index < schema.nodes.length :=
  (List.getElem?_eq_some_iff.1 h).1

end Schema
end Conform
