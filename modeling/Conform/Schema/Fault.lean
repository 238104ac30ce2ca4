import Conform.Schema.Basic

namespace Conform

inductive SchemaFault where
  | unknownNode (id : NodeId)
  | notAnObject (id : NodeId)
  | duplicateProperty (object : NodeId) (key : String)
  | invalidId (id : String) (reason : String)
deriving DecidableEq

namespace SchemaFault

def message : SchemaFault → String
  | .unknownNode id => s!"node {id} is not part of the schema graph"
  | .notAnObject id => s!"node {id} is not an object node"
  | .duplicateProperty object key => s!"object node {object} already declares property '{key}'"
  | .invalidId id reason => s!"invalid schema id '{id}': {reason}"

end SchemaFault

namespace Schema

/-- Whether every handle refers to a node: the root first, then the children of each node in arena
order. -/
def checkReferences (schema : Schema) : Except SchemaFault Unit :=
  match (schema.root :: schema.nodes.flatMap Node.children).find? (schema.node? · |>.isNone) with
  | some id => .error (.unknownNode id)
  | none => .ok ()

end Schema
end Conform
