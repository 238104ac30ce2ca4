import Conform.Schema.Unvisited

/-!
Short descriptions of nodes, such as `(Foo | Bar)`, `string[]` or `[number,'on']`. An object shows
its name only, so a cycle through an object ends there; a cycle that avoids objects shows the node
that comes again as `...`.
-/

namespace Conform.Schema

def renderWithin (schema : Schema) (opened : List NodeId) (id : NodeId) : String :=
  match _ : schema.node? id with
  | none => "<unknown>"
  | some node =>
    if _ : id ∈ opened then "..."
    else
      match node with
      | .valueType kind => kind.name
      | .literal value => value.literal
      | .object name _ => name
      | .array element => schema.renderWithin (id :: opened) element ++ "[]"
      | .tuple elements =>
        "[" ++ ",".intercalate (elements.map fun e => schema.renderWithin (id :: opened) e) ++ "]"
      | .union members =>
        "(" ++ " | ".intercalate (members.map fun m => schema.renderWithin (id :: opened) m) ++ ")"
      | .intersection members =>
        "(" ++ " & ".intercalate (members.map fun m => schema.renderWithin (id :: opened) m) ++ ")"
      | .enum name values => s!"Enum: {name}({Scalar.list values})"
termination_by schema.unvisited opened
decreasing_by all_goals exact unvisited_cons_lt ‹_› ‹_›

def render (schema : Schema) (id : NodeId) : String := schema.renderWithin [] id

def listing (schema : Schema) (withNodes : Bool) : String :=
  let line : Node × Nat → String := fun (node, i) =>
    let id : NodeId := ⟨i⟩
    s!"  {id} {node.kind.name} {schema.render id}\n"
  schema.render schema.root ++ "\n" ++
    if withNodes then String.join (schema.nodes.zipIdx.map line) else ""

end Conform.Schema
