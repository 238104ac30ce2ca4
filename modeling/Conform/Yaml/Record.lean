import Conform.Yaml.Expansion

namespace Conform.Yaml.Graph

def text (graph : Graph) (node : Node Nat) : Reading String := do
  match ← graph.follow node with
  | .scalar _ _ text => return text
  | _ => failure

private def integerTag : Tag := .ofText "tag:yaml.org,2002:int"

/-- The value of a natural number: a plain scalar, or a literal one with the tag of integers. -/
def natural (graph : Graph) (node : Node Nat) : Reading Nat := do
  match ← graph.follow node with
  | .scalar properties style text =>
    guard (style = .plain || (style = .literal && properties.tag = some integerTag))
    unsignedOf? text
  | _ => failure

def items (graph : Graph) (node : Node Nat) : Reading (List (Node Nat)) := do
  match ← graph.follow node with
  | .sequence _ items => return items
  | .scalar _ .plain "" => return []
  | _ => failure

def fields (graph : Graph) (node : Node Nat) : Reading (List (String × Node Nat)) := do
  match ← graph.follow node with
  | .mapping _ entries => entries.mapM fun (key, value) => return (← graph.text key, value)
  | .scalar _ .plain "" => return []
  | _ => failure

end Conform.Yaml.Graph

namespace Conform.Yaml

def field? (name : String) (fields : List (String × Node Nat)) : Option (Option (Node Nat)) :=
  match fields.filter (·.1 == name) with
  | [] => some none
  | [(_, node)] => some (some node)
  | _ => none

end Conform.Yaml
