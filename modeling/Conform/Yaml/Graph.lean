import Conform.Yaml.Node
import Conform.Yaml.Tokens

/-!
A YAML document with its aliases told apart by number. An anchor is numbered by how many different
names came before it, so an anchor under an old name can take a number in use; the later node then
stands for both.
-/

namespace Conform.Yaml

/-- The names of the anchors so far, each with the number of its latest anchor. -/
private abbrev AnchorNames := List (String × Nat)

private def linkProperties (properties : NodeProperties String) :
    StateT AnchorNames Option (NodeProperties Nat) := fun names =>
  match properties.anchor with
  | none => some (⟨none, properties.tag⟩, names)
  | some name =>
    some (⟨some names.length, properties.tag⟩, (name, names.length) :: names.filter (·.1 != name))

mutual

private def link : Node String → StateT AnchorNames Option (Node Nat)
  | .alias name => fun names => (names.lookup name).map fun anchor => (.alias anchor, names)
  | .scalar properties style text => return .scalar (← linkProperties properties) style text
  | .sequence properties items => return .sequence (← linkProperties properties) (← linkItems items)
  | .mapping properties entries =>
    return .mapping (← linkProperties properties) (← linkEntries entries)

private def linkItems : List (Node String) → StateT AnchorNames Option (List (Node Nat))
  | [] => return []
  | item :: rest => return (← link item) :: (← linkItems rest)

private def linkEntries :
    List (Node String × Node String) → StateT AnchorNames Option (List (Node Nat × Node Nat))
  | [] => return []
  | (key, value) :: rest => return (← link key, ← link value) :: (← linkEntries rest)

end

private def withAnchor (properties : NodeProperties Nat) (node : Node Nat) :
    List (Nat × Node Nat) :=
  (properties.anchor.map (·, node)).toList

mutual

private def anchored : Node Nat → List (Nat × Node Nat)
  | .alias _ => []
  | .scalar properties style text => withAnchor properties (.scalar properties style text)
  | .sequence properties items =>
    withAnchor properties (.sequence properties items) ++ anchoredItems items
  | .mapping properties entries =>
    withAnchor properties (.mapping properties entries) ++ anchoredEntries entries

private def anchoredItems : List (Node Nat) → List (Nat × Node Nat)
  | [] => []
  | item :: rest => anchored item ++ anchoredItems rest

private def anchoredEntries : List (Node Nat × Node Nat) → List (Nat × Node Nat)
  | [] => []
  | (key, value) :: rest => anchored key ++ anchored value ++ anchoredEntries rest

end

mutual

/-- The length of a document: scalars and aliases count one, a collection one for each of its
ends. -/
private def extent : Node Nat → Nat
  | .alias _ => 1
  | .scalar _ _ _ => 1
  | .sequence _ items => 2 + extentItems items
  | .mapping _ entries => 2 + extentEntries entries

private def extentItems : List (Node Nat) → Nat
  | [] => 0
  | item :: rest => extent item + extentItems rest

private def extentEntries : List (Node Nat × Node Nat) → Nat
  | [] => 0
  | (key, value) :: rest => extent key + extent value + extentEntries rest

end

structure Graph where
  root : Node Nat
  anchored : List (Nat × Node Nat)
  aliasLimit : Nat

/-- A reading that may fail; its state is the number of aliases that may still be followed. -/
abbrev Reading := StateT Nat Option

namespace Graph

/-- The document that a text holds, unless it is malformed or refers to an anchor that does not come
before. -/
def ofText? (text : String) : Option Graph := do
  let tokens ← Token.ofSource? (← Source.ofText? text)
  let (root, _) ← link (← Node.ofTokens? tokens) []
  return ⟨root, (Yaml.anchored root).reverse, 100 * extent root⟩

def follow (graph : Graph) : Node Nat → Reading (Node Nat)
  | .alias anchor => fun left =>
    if left = 0 then none else (graph.anchored.lookup anchor).map (·, left - 1)
  | node => return node

end Graph

def Reading.run? (reading : Reading α) (graph : Graph) : Option α :=
  (reading graph.aliasLimit).map (·.1)

end Conform.Yaml
