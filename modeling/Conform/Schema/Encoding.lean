import Conform.Schema.Basic

namespace Conform

namespace NodeId

def toJson (id : NodeId) : Json := .ofInt id.index

def listToJson (ids : List NodeId) : Json := .array (ids.map toJson)

end NodeId

namespace ValueKind

def tag : ValueKind → String
  | .string => "string"
  | .number => "number"
  | .boolean => "boolean"
  | .null => "null"
  | .undefined => "undefined"
  | .any => "any"
  | .function => "function"
  | .object => "object"

def all : List ValueKind :=
  [.string, .number, .boolean, .null, .undefined, .any, .function, .object]

end ValueKind

def Scalar.toJson : Scalar → Json
  | .string s => .string s
  | .number n => .number n

def Property.toJson (property : Property) : Json :=
  .object (("definition", property.definition.toJson) ::
    if property.isOptional then [("optional", .bool true)] else [])

namespace Node

def fields : Node → List (String × Json)
  | .valueType kind => [("type", .string kind.tag)]
  | .literal value => [("value", value.toJson)]
  | .object name properties =>
    [("name", .string name), ("properties", .object (properties.map fun (k, p) => (k, p.toJson)))]
  | .array element => [("element", element.toJson)]
  | .tuple elements => [("elements", NodeId.listToJson elements)]
  | .union members => [("members", NodeId.listToJson members)]
  | .intersection members => [("members", NodeId.listToJson members)]
  | .enum name values => [("name", .string name), ("values", .array (values.map Scalar.toJson))]

def toJson (node : Node) : Json := .object (("kind", .string node.kind.name) :: node.fields)

end Node

def Schema.toJson (schema : Schema) : Json :=
  .object [("root", schema.root.toJson), ("nodes", .array (schema.nodes.map Node.toJson))]

end Conform
