import Conform.Json.Reader
import Conform.Schema.Decoding
import Conform.Yaml.Record

namespace Conform

inductive Format where
  | json
  | yaml
deriving DecidableEq

def Format.label : Format → String
  | .json => "JSON"
  | .yaml => "YAML"

namespace Schema

/-- The nesting that counts is that of the nodes, and of what holds them. -/
private def isShallow : Json → Bool
  | .object entries =>
    entries.all fun (key, value) => key != "nodes" || value.depth + 1 ≤ Json.depthLimit
  | .array items => items.all fun item => item.depth + 1 ≤ Json.depthLimit
  | _ => true

private def ofJsonText? (text : String) : Option Schema := do
  let document ← Json.ofFileText? (· ∉ ["root", "nodes"]) text
  guard (isShallow document)
  (Schema.decode (.ofJson document)).toOption

mutual

private def hasTag : Yaml → Bool
  | .tagged _ _ => true
  | .sequence items => anyTagged items
  | .mapping entries => anyEntryTagged entries
  | _ => false

private def anyTagged : List Yaml → Bool
  | [] => false
  | item :: rest => hasTag item || anyTagged rest

private def anyEntryTagged : List (Yaml × Yaml) → Bool
  | [] => false
  | (key, value) :: rest => hasTag key || hasTag value || anyEntryTagged rest

end

/-- The value of a node of the schema, two levels below the top of the document. The name of its
kind is any scalar, taken as it is written. -/
private def nodeValue (graph : Yaml.Graph) (node : Yaml.Node Nat) : Yaml.Reading Yaml := do
  let depth := Yaml.depthLimit - 3
  let value := graph.value false depth
  match ← graph.follow node with
  | .mapping properties entries =>
    guard (properties.tag.bind (·.localName?)).isNone
    return .mapping (← entries.mapM fun (key, content) => do
      match ← value key with
      | .string "kind" => return (.string "kind", .string (← graph.text content))
      | key => return (key, ← value content))
  | .sequence properties (kind :: items) =>
    guard (properties.tag.bind (·.localName?)).isNone
    return .sequence (.string (← graph.text kind) :: (← items.mapM value))
  | _ => failure

private def readNode (graph : Yaml.Graph) (node : Yaml.Node Nat) : Yaml.Reading Node := do
  let value ← nodeValue graph node
  guard !hasTag value
  (Node.decode value).toOption

private def readSchema (graph : Yaml.Graph) : Yaml.Reading Schema := do
  let fields ← graph.fields graph.root
  let root ← graph.natural (← (← Yaml.field? "root" fields))
  let nodes ← (← graph.items (← (← Yaml.field? "nodes" fields))).mapM (readNode graph)
  return ⟨⟨root⟩, nodes⟩

private def ofYamlText? (text : String) : Option Schema := do
  let graph ← Yaml.Graph.ofText? text
  (readSchema graph).run? graph

def ofText? : Format → String → Option Schema
  | .json, text => ofJsonText? text
  | .yaml, text => ofYamlText? text

end Schema
end Conform
