import Conform.Yaml.Token

namespace Conform.Yaml

structure NodeProperties (ι : Type) where
  anchor : Option ι
  tag : Option Tag
deriving DecidableEq

def NodeProperties.none : NodeProperties ι := ⟨.none, .none⟩

/-- A node, in which anchors and aliases are told apart by `ι`. -/
inductive Node (ι : Type) where
  | alias (anchor : ι)
  | scalar (properties : NodeProperties ι) (style : ScalarStyle) (text : String)
  | sequence (properties : NodeProperties ι) (items : List (Node ι))
  | mapping (properties : NodeProperties ι) (entries : List (Node ι × Node ι))

namespace Node

def empty : Node ι := .scalar .none .plain ""

/-- The starts of tags that the handles of shorthand tags stand for. -/
private abbrev TagHandles := List (String × Tag)

private def tag? (handles : TagHandles) (handle : String) (suffix : Tag) : Option Tag :=
  if handle.isEmpty then some suffix else (handles.lookup handle).map (· ++ suffix)

private abbrev Rest (tokens : List Token) := { rest : List Token // rest.length ≤ tokens.length }

private def Rest.within {inner tokens : List Token} (rest : Rest inner)
    (h : inner.length ≤ tokens.length) : Rest tokens :=
  ⟨rest.1, Nat.le_trans rest.2 h⟩

private def Rest.behind {token : Token} {inner : List Token} (rest : Rest inner) :
    Rest (token :: inner) :=
  rest.within (Nat.le_succ _)

private def Rest.all (tokens : List Token) : Rest tokens := ⟨tokens, Nat.le_refl _⟩

private def takeProperties (handles : TagHandles) (tokens : List Token) :
    Option (NodeProperties String × Rest tokens) :=
  match tokens with
  | .anchor name :: .tag handle suffix :: rest
  | .tag handle suffix :: .anchor name :: rest => do
    return (⟨some name, some (← tag? handles handle suffix)⟩, (Rest.all rest).behind.behind)
  | .anchor name :: rest => some (⟨some name, .none⟩, (Rest.all rest).behind)
  | .tag handle suffix :: rest => do
    return (⟨.none, some (← tag? handles handle suffix)⟩, (Rest.all rest).behind)
  | rest => some (.none, Rest.all rest)

private def startsWith (tokens : List Token) (options : List Token) : Bool :=
  tokens.head?.any options.contains

/-- Whether block collections may start at a node, and entries without indentation of their own. -/
private inductive Position where
  | flow
  | block
  | blockEntryValue
deriving DecidableEq

mutual

private def read (handles : TagHandles) (position : Position) (tokens : List Token) :
    Option (Node String × Rest tokens) := do
  let (properties, ⟨rest, h⟩) ← takeProperties handles tokens
  let (node, after) ← readContent handles position properties rest
  return (node, after.within h)
termination_by 4 * tokens.length + 2
decreasing_by all_goals omega

/-- What follows the properties of a node. Without any, the node must be there. -/
private def readContent (handles : TagHandles) (position : Position)
    (properties : NodeProperties String) (tokens : List Token) :
    Option (Node String × Rest tokens) :=
  match tokens, position with
  | .scalar style text :: rest, _ => some (.scalar properties style text, (Rest.all rest).behind)
  | .flowSequenceStart :: inner, _ => do
    let (items, rest) ← readFlowItems handles inner
    return (.sequence properties items, rest.behind)
  | .flowMappingStart :: inner, _ => do
    let (entries, rest) ← readFlowEntries handles inner
    return (.mapping properties entries, rest.behind)
  | .blockEntry :: inner, .blockEntryValue => do
    let (items, rest) ← readEntries handles true (.blockEntry :: inner)
    return (.sequence properties items, rest)
  | .blockSequenceStart :: inner, .block | .blockSequenceStart :: inner, .blockEntryValue => do
    let (items, rest) ← readEntries handles false inner
    return (.sequence properties items, rest.behind)
  | .blockMappingStart :: inner, .block | .blockMappingStart :: inner, .blockEntryValue => do
    let (entries, rest) ← readBlockMapping handles inner
    return (.mapping properties entries, rest.behind)
  | .alias name :: rest, _ =>
    if properties = .none then some (.alias name, (Rest.all rest).behind) else none
  | rest, _ =>
    if properties = .none then none else some (.scalar properties .plain "", Rest.all rest)
termination_by 4 * tokens.length + 1
decreasing_by all_goals (simp only [List.length_cons]; omega)

private def readUnless (handles : TagHandles) (position : Position) (ends : List Token)
    (tokens : List Token) : Option (Node String × Rest tokens) :=
  if startsWith tokens ends then some (empty, Rest.all tokens) else read handles position tokens
termination_by 4 * tokens.length + 3
decreasing_by all_goals omega

private def readValue (handles : TagHandles) (position : Position) (ends : List Token)
    (tokens : List Token) : Option (Node String × Rest tokens) :=
  match tokens with
  | .value :: inner => do
    let (value, rest) ← readUnless handles position ends inner
    return (value, rest.behind)
  | rest => some (empty, Rest.all rest)
termination_by 4 * tokens.length
decreasing_by all_goals (simp only [List.length_cons]; omega)

private def readEntries (handles : TagHandles) (indentless : Bool) (tokens : List Token) :
    Option (List (Node String) × Rest tokens) :=
  match tokens with
  | .blockEntry :: inner => do
    let ends :=
      if indentless then [.blockEntry, .key, .value, .blockEnd] else [.blockEntry, .blockEnd]
    let (item, ⟨rest, h⟩) ← readUnless handles .block ends inner
    let (items, after) ← readEntries handles indentless rest
    return (item :: items, (after.within h).behind)
  | .blockEnd :: rest => do
    return ([], if indentless then Rest.all _ else (Rest.all rest).behind)
  | rest => if indentless then some ([], Rest.all rest) else none
termination_by 4 * tokens.length
decreasing_by all_goals (simp only [List.length_cons]; omega)

private def readBlockMapping (handles : TagHandles) (tokens : List Token) :
    Option (List (Node String × Node String) × Rest tokens) :=
  match tokens with
  | .key :: inner => do
    let ends := [.key, .value, .blockEnd]
    let (key, ⟨rest, h⟩) ← readUnless handles .blockEntryValue ends inner
    let (value, ⟨rest', h'⟩) ← readValue handles .blockEntryValue ends rest
    let (entries, after) ← readBlockMapping handles rest'
    return ((key, value) :: entries, ((after.within h').within h).behind)
  | .blockEnd :: rest => some ([], (Rest.all rest).behind)
  | _ => .none
termination_by 4 * tokens.length
decreasing_by all_goals (simp only [List.length_cons]; omega)

private def readFlowItems (handles : TagHandles) (tokens : List Token) :
    Option (List (Node String) × Rest tokens) :=
  match tokens with
  | .flowSequenceEnd :: rest => some ([], (Rest.all rest).behind)
  | tokens => do
    match ← readFlowItem handles tokens with
    | (item, ⟨.flowSequenceEnd :: rest, h⟩) => return ([item], (Rest.all rest).behind.within h)
    | (item, ⟨.flowEntry :: rest, h⟩) =>
      let (items, after) ← readFlowItems handles rest
      return (item :: items, after.behind.within h)
    | _ => .none
termination_by 4 * tokens.length + 4
decreasing_by all_goals (try simp only [List.length_cons] at h); omega

/-- An item of a sequence in brackets. A key makes it a mapping of one entry; where the key is
omitted, the token in its place is passed over. -/
private def readFlowItem (handles : TagHandles) (tokens : List Token) :
    Option (Node String × Rest tokens) :=
  match tokens with
  | .key :: inner => do
    let (key, ⟨rest, h⟩) ← readFlowKey handles inner
    let (value, after) ← readValue handles .flow [.flowEntry, .flowSequenceEnd] rest
    return (.mapping .none [(key, value)], (after.within h).behind)
  | tokens => read handles .flow tokens
termination_by 4 * tokens.length + 3
decreasing_by all_goals (try simp only [List.length_cons]); omega

private def readFlowKey (handles : TagHandles) (tokens : List Token) :
    Option (Node String × Rest tokens) :=
  match tokens with
  | .value :: rest | .flowEntry :: rest | .flowSequenceEnd :: rest =>
    some (empty, (Rest.all rest).behind)
  | tokens => read handles .flow tokens
termination_by 4 * tokens.length + 3
decreasing_by all_goals omega

private def readFlowEntries (handles : TagHandles) (tokens : List Token) :
    Option (List (Node String × Node String) × Rest tokens) :=
  match tokens with
  | .flowMappingEnd :: rest => some ([], (Rest.all rest).behind)
  | tokens => do
    match ← readFlowEntry handles tokens with
    | (entry, ⟨.flowMappingEnd :: rest, h⟩) => return ([entry], (Rest.all rest).behind.within h)
    | (entry, ⟨.flowEntry :: rest, h⟩) =>
      let (entries, after) ← readFlowEntries handles rest
      return (entry :: entries, after.behind.within h)
    | _ => .none
termination_by 4 * tokens.length + 4
decreasing_by all_goals (try simp only [List.length_cons] at h); omega

private def readFlowEntry (handles : TagHandles) (tokens : List Token) :
    Option ((Node String × Node String) × Rest tokens) :=
  match tokens with
  | .key :: inner => do
    let (key, ⟨rest, h⟩) ← readUnless handles .flow [.value, .flowEntry, .flowMappingEnd] inner
    let (value, after) ← readValue handles .flow [.flowEntry, .flowMappingEnd] rest
    return ((key, value), (after.within h).behind)
  | tokens => do
    let (key, rest) ← read handles .flow tokens
    return ((key, empty), rest)
termination_by 4 * tokens.length + 3
decreasing_by all_goals (try simp only [List.length_cons]); omega

end

private def defaultHandles : TagHandles :=
  [("!", .ofText "!"), ("!!", .ofText "tag:yaml.org,2002:")]

private def readDirectives (handles : TagHandles) (versioned : Bool) :
    List Token → Option (TagHandles × List Token)
  | .versionDirective major minor :: rest =>
    if versioned || major ≠ 1 || (minor ≠ 1 && minor ≠ 2) then .none
    else readDirectives handles true rest
  | .tagDirective handle start :: rest =>
    if (handles.lookup handle).isSome then .none
    else readDirectives ((handle, start) :: handles) versioned rest
  | .documentStart :: rest => some (handles ++ defaultHandles, rest)
  | _ => .none

private def startsDirectives : List Token → Bool
  | .versionDirective _ _ :: _ | .tagDirective _ _ :: _ | .documentStart :: _ => true
  | _ => false

private def readDocument (tokens : List Token) : Option (Node String × List Token) := do
  if startsDirectives tokens then
    let (handles, rest) ← readDirectives [] false tokens
    if rest.isEmpty || startsDirectives rest || startsWith rest [.documentEnd] then
      return (empty, rest)
    let (node, rest) ← read handles .block rest
    return (node, rest.1)
  else
    let (node, rest) ← read defaultHandles .block tokens
    return (node, rest.1)

/-- The node of the only document of a stream; a stream without document counts as one whose node is
omitted. -/
def ofTokens? (tokens : List Token) : Option (Node String) := do
  if tokens.isEmpty then return empty
  let (node, rest) ← readDocument tokens
  guard (rest.all (· == .documentEnd))
  return node

end Node
end Conform.Yaml
