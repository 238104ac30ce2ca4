import Conform.Yaml.Lexeme.Block
import Conform.Yaml.Lexeme.Name
import Conform.Yaml.Lexeme.Plain

/-!
The tokens of a YAML stream. Indentation opens and closes block collections; a key shows itself only
by the `:` behind it, and its token is then put before what has been read.
-/

namespace Conform.Yaml

private structure KeyStart where
  /-- The key starts where the entries of the innermost block do, so it must turn out to be one. -/
  isRequired : Bool
  position : Nat
  mark : Located

/-- Such a key lies within one line and takes no more than 1024 bytes. -/
private def KeyStart.isStale (key : KeyStart) (mark : Located) : Bool :=
  key.mark.line < mark.line || mark.left + 1024 < key.mark.left

private structure Layout where
  tokens : List Token
  count : Nat
  /-- The columns of the open block collections, innermost first. -/
  indents : List Nat
  keyStart : Option KeyStart
  outerKeyStarts : List (Option KeyStart)
  keyAllowed : Bool

namespace Layout

private def empty : Layout := ⟨[], 0, [], none, [], true⟩

private def inFlow (layout : Layout) : Bool := !layout.outerKeyStarts.isEmpty

private def emit (layout : Layout) (token : Token) : Layout :=
  { layout with tokens := token :: layout.tokens, count := layout.count + 1 }

private def insert (layout : Layout) (position : Nat) (token : Token) : Layout :=
  { layout with
    tokens := layout.tokens.insertIdx (layout.count - position) token
    count := layout.count + 1 }

private def allowKey (layout : Layout) (allowed : Bool) : Layout :=
  { layout with keyAllowed := allowed }

private def openBlock (layout : Layout) (column position : Nat) (token : Token) : Layout :=
  if !layout.inFlow && layout.indents.head?.all (· < column) then
    { layout with indents := column :: layout.indents }.insert position token
  else layout

private def closeBlocksFrom (isClosed : Nat → Bool) (layout : Layout) : List Nat → Layout
  | [] => { layout with indents := [] }
  | column :: outer =>
    if isClosed column then closeBlocksFrom isClosed (layout.emit .blockEnd) outer
    else { layout with indents := column :: outer }

private def closeBlocks (layout : Layout) (isClosed : Nat → Bool) : Layout :=
  if layout.inFlow then layout else closeBlocksFrom isClosed layout layout.indents

private def forgetKey (layout : Layout) : Option Layout := do
  guard (!layout.keyStart.any (·.isRequired))
  return { layout with keyStart := none }

private def noteKey (layout : Layout) (mark : Located) : Option Layout := do
  if !layout.keyAllowed then return layout
  let isRequired := !layout.inFlow && layout.indents.head? == some mark.column
  return { ← layout.forgetKey with keyStart := some ⟨isRequired, layout.count, mark⟩ }

private def dropStale (mark : Located) : Option KeyStart → Option (Option KeyStart)
  | none => some none
  | some key =>
    if key.isStale mark then if key.isRequired then none else some none else some (some key)

private def dropStaleKeys (layout : Layout) (mark : Located) : Option Layout := do
  return { layout with
    keyStart := ← dropStale mark layout.keyStart
    outerKeyStarts := ← layout.outerKeyStarts.mapM (dropStale mark) }

private def openFlow (layout : Layout) (mark : Located) (token : Token) : Option Layout := do
  let layout ← layout.noteKey mark
  return { layout with
    keyStart := none
    outerKeyStarts := layout.keyStart :: layout.outerKeyStarts
    keyAllowed := true }.emit token

private def closeFlow (layout : Layout) (token : Token) : Option Layout := do
  let layout ← layout.forgetKey
  return { layout with
    keyStart := layout.outerKeyStarts.head?.join
    outerKeyStarts := layout.outerKeyStarts.tail
    keyAllowed := false }.emit token

private def blockIndicator (layout : Layout) (mark : Located) (opening : Token) :
    Option Layout := do
  if layout.inFlow then return layout
  guard layout.keyAllowed
  return layout.openBlock mark.column layout.count opening

private def entryIndicator (layout : Layout) (mark : Located) : Option Layout := do
  let layout ← (← layout.blockIndicator mark .blockSequenceStart).forgetKey
  return (layout.allowKey true).emit .blockEntry

private def keyIndicator (layout : Layout) (mark : Located) : Option Layout := do
  let layout ← (← layout.blockIndicator mark .blockMappingStart).forgetKey
  return (layout.allowKey !layout.inFlow).emit .key

private def valueIndicator (layout : Layout) (mark : Located) : Option Layout := do
  match layout.keyStart with
  | some key =>
    let layout := layout.insert key.position .key
    let layout := layout.openBlock key.mark.column key.position .blockMappingStart
    return { layout with keyStart := none, keyAllowed := false }.emit .value
  | none =>
    let layout ← layout.blockIndicator mark .blockMappingStart
    return (layout.allowKey !layout.inFlow).emit .value

private def documentLine (layout : Layout) : Option Layout := do
  return (← (layout.closeBlocks fun _ => true).forgetKey).allowKey false

/-- Drops blanks, comments and line breaks. A tab is no blank where it could be taken for
indentation. -/
private def skipGap (layout : Layout) (inComment : Bool) : Source → Layout × Source
  | [] => (layout, [])
  | m :: rest =>
    if isBreak m.char then
      skipGap (layout.allowKey (layout.keyAllowed || !layout.inFlow)) false rest
    else if inComment || m.char == '#' then skipGap layout true rest
    else if m.char == ' ' || (m.char == '\t' && (layout.inFlow || !layout.keyAllowed)) ||
        (m.char == byteOrderMark && m.column == 0) then
      skipGap layout false rest
    else (layout, m :: rest)

private def keyPart (layout : Layout) (mark : Located) (scanned : Option (Token × Source)) :
    Option (Layout × Source) := do
  let layout ← layout.noteKey mark
  let (token, rest) ← scanned
  return ((layout.allowKey false).emit token, rest)

private def plainScalar (layout : Layout) (source : Source) : Option (Layout × Source) := do
  let mark ← source.head?
  let layout ← layout.noteKey mark
  let scalar ← scanPlain layout.inFlow (layout.indents.head?.elim 0 (· + 1)) [] .none source
  return ((layout.allowKey scalar.endsLine).emit (.scalar .plain scalar.text), scalar.rest)

private def quotedScalar (layout : Layout) (mark : Located) (style : ScalarStyle)
    (source : Source) : Option (Layout × Source) :=
  layout.keyPart mark do
    let (text, rest) ← scanQuoted (style == .doubleQuoted) source
    return (.scalar style text, rest)

private def blockScalar (layout : Layout) (style : ScalarStyle) (source : Source) :
    Option (Layout × Source) := do
  guard !layout.inFlow
  let layout ← layout.forgetKey
  let (text, rest) ← scanBlock (style == .literal) layout.indents.head? source
  return ((layout.allowKey true).emit (.scalar style text), rest)

private def token (layout : Layout) (mark : Located) (rest : Source) : Option (Layout × Source) :=
  if mark.char = '%' ∧ mark.column = 0 then do
    let layout ← layout.documentLine
    let (token, rest) ← scanDirective rest
    return (layout.emit token, rest)
  else if Source.atDocumentMark (mark :: rest) then do
    let layout ← layout.documentLine
    return (layout.emit (if mark.char = '-' then .documentStart else .documentEnd), rest.drop 2)
  else
    match mark.char with
    | '[' => do return (← layout.openFlow mark .flowSequenceStart, rest)
    | '{' => do return (← layout.openFlow mark .flowMappingStart, rest)
    | ']' => do return (← layout.closeFlow .flowSequenceEnd, rest)
    | '}' => do return (← layout.closeFlow .flowMappingEnd, rest)
    | ',' => do return (((← layout.forgetKey).allowKey true).emit .flowEntry, rest)
    | '-' =>
      if rest.atGap then do return (← layout.entryIndicator mark, rest)
      else layout.plainScalar (mark :: rest)
    | '?' =>
      if layout.inFlow || rest.atGap then do return (← layout.keyIndicator mark, rest)
      else layout.plainScalar (mark :: rest)
    | ':' =>
      if layout.inFlow || rest.atGap then do return (← layout.valueIndicator mark, rest)
      else layout.plainScalar (mark :: rest)
    | '*' => layout.keyPart mark do
      let (name, rest) ← scanAnchor rest
      return (.alias name, rest)
    | '&' => layout.keyPart mark do
      let (name, rest) ← scanAnchor rest
      return (.anchor name, rest)
    | '!' => layout.keyPart mark do
      let (handle, suffix, rest) ← scanTag layout.inFlow (mark :: rest)
      return (.tag handle suffix, rest)
    | '|' => layout.blockScalar .literal rest
    | '>' => layout.blockScalar .folded rest
    | '\'' => layout.quotedScalar mark .singleQuoted rest
    | '"' => layout.quotedScalar mark .doubleQuoted rest
    | '%' | '@' | '\x60' | '\t' => none
    | _ => layout.plainScalar (mark :: rest)

private def next (layout : Layout) (source : Source) : Option (Layout × Option Source) := do
  match layout.skipGap false source with
  | (layout, []) => return (← layout.documentLine, none)
  | (layout, mark :: rest) =>
    let layout ← layout.dropStaleKeys mark
    let (layout, rest) ← (layout.closeBlocks (mark.column < ·)).token mark rest
    return (layout, some rest)

private def tokensFrom (layout : Layout) (source : Source) : Option (List Token) :=
  match layout.next source with
  | none => none
  | some (layout, none) => some layout.tokens.reverse
  | some (layout, some rest) =>
    if rest.left < source.left then tokensFrom layout rest else none
termination_by source.left

end Layout

def Token.ofSource? (source : Source) : Option (List Token) := Layout.empty.tokensFrom source

end Conform.Yaml
