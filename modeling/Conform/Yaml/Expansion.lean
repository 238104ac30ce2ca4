import Conform.Yaml.Equality
import Conform.Yaml.Graph
import Conform.Yaml.Resolution

namespace Conform.Yaml

def depthLimit : Nat := 128

namespace Node

def tag : Node ι → Option Tag
  | .alias _ => none
  | .scalar properties _ _ => properties.tag
  | .sequence properties _ => properties.tag
  | .mapping properties _ => properties.tag

end Node

private def scalarValue? (tag : Option Tag) (style : ScalarStyle) (text : String) : Option Yaml :=
  match tag.filter (!·.isLocal) with
  | some tag => ofTypedText? tag text
  | none => if style = .plain then ofPlainText? text else some (.string text)

namespace Graph

/-- The value of a node with at most `depth` levels of collections. A local tag is kept with it
where the tag is text. -/
def value (graph : Graph) (distinctKeys : Bool) : Nat → Node Nat → Reading Yaml
  | depth, node => do
    let node ← graph.follow node
    let content : Yaml ←
      match depth, node with
      | _, .alias _ => failure
      | _, .scalar properties style text => scalarValue? properties.tag style text
      | 0, _ => failure
      | depth + 1, .sequence _ items =>
        pure (.sequence (← items.mapM (graph.value distinctKeys depth)))
      | depth + 1, .mapping _ entries =>
        let entries ← entries.mapM fun (key, value) => do
          return (← graph.value distinctKeys depth key, ← graph.value distinctKeys depth value)
        guard (!distinctKeys || haveDistinctKeys entries)
        pure (.mapping entries)
    return ((node.tag.bind (·.localName?)).map Tag.dropMark).elim content (.tagged · content)

end Graph

/-- The value of a document. Aliases are followed, and no mapping may repeat a key. -/
def ofText? (text : String) : Option Yaml := do
  let graph ← Graph.ofText? text
  (graph.value true depthLimit graph.root).run? graph

end Conform.Yaml
