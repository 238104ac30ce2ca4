import Conform.Schema.Fault

/-!
Building a schema node by node. An object is declared before its properties are, so that a property
can point back at its own object.
-/

namespace Conform

structure SchemaGraph where
  nodes : List Node
deriving DecidableEq

namespace SchemaGraph

def empty : SchemaGraph := ⟨[]⟩

def size (graph : SchemaGraph) : Nat := graph.nodes.length

def add (graph : SchemaGraph) (node : Node) : NodeId × SchemaGraph :=
  (⟨graph.size⟩, ⟨graph.nodes ++ [node]⟩)

def valueType (graph : SchemaGraph) (kind : ValueKind) : NodeId × SchemaGraph :=
  graph.add (.valueType kind)

def literal (graph : SchemaGraph) (value : Scalar) : NodeId × SchemaGraph :=
  graph.add (.literal value)

def array (graph : SchemaGraph) (element : NodeId) : NodeId × SchemaGraph :=
  graph.add (.array element)

def tuple (graph : SchemaGraph) (elements : List NodeId) : NodeId × SchemaGraph :=
  graph.add (.tuple elements)

def union (graph : SchemaGraph) (members : List NodeId) : NodeId × SchemaGraph :=
  graph.add (.union members)

def intersection (graph : SchemaGraph) (members : List NodeId) : NodeId × SchemaGraph :=
  graph.add (.intersection members)

def enumeration (graph : SchemaGraph) (name : String) (values : List Scalar) :
    NodeId × SchemaGraph :=
  graph.add (.enum name values)

def object (graph : SchemaGraph) (name : String) : NodeId × SchemaGraph :=
  graph.add (.object name [])

/-- Adds a property at the end of a declared object. Of several faults the first of these is
reported: the definition is unknown, the object is unknown, it is no object, it has the key. -/
def property (graph : SchemaGraph) (object : NodeId) (key : String) (property : Property) :
    Except SchemaFault SchemaGraph :=
  if graph.size ≤ property.definition.index then .error (.unknownNode property.definition)
  else
    match graph.nodes[object.index]? with
    | none => .error (.unknownNode object)
    | some (.object name properties) =>
      if properties.any (·.1 == key) then .error (.duplicateProperty object key)
      else
        .ok ⟨graph.nodes.set object.index (.object name (properties ++ [(key, property)]))⟩
    | some _ => .error (.notAnObject object)

def finish (graph : SchemaGraph) (root : NodeId) : Except SchemaFault Schema :=
  let schema : Schema := ⟨root, graph.nodes⟩
  schema.checkReferences.map fun _ => schema

end SchemaGraph
end Conform
