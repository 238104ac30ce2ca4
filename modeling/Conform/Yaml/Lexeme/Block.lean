import Conform.Yaml.Lexeme.Gap

namespace Conform.Yaml

inductive Chomping where
  | strip
  | clip
  | keep

private structure Line where
  text : List Char
  lineBreak : Option Char
  rest : Source

private def takeLine : Source → Line
  | [] => ⟨[], none, []⟩
  | m :: rest =>
    if isBreak m.char then ⟨[], some m.char, rest⟩
    else
      let line := takeLine rest
      { line with text := m.char :: line.text }

private theorem length_rest_takeLine_le (source : Source) :
    (takeLine source).rest.length ≤ source.length - 1 := by
  induction source with
  | nil => simp [takeLine]
  | cons m rest ih =>
    rw [takeLine]
    split <;> simp only [List.length_cons] <;> omega

/-- The indentation that the first line with text sets, but at least `least` and at least that of
the blank lines above. No tab may stand in it. -/
private def detectIndent (least : Nat) : Source → Option Nat
  | [] => some least
  | m :: rest =>
    let line := takeLine (m :: rest)
    let spaces := (line.text.takeWhile (· == ' ')).length
    let least' := max least spaces
    match line.text.drop spaces, line.lineBreak with
    | [], none => some least'
    | [], some _ => detectIndent least' line.rest
    | c :: _, _ => if c = '\t' then none else some least'
termination_by source => source.length
decreasing_by
  have := length_rest_takeLine_le (m :: rest)
  simp only [List.length_cons] at this ⊢
  omega

/-- A block scalar so far, in reverse: its text, the break behind its last line, the breaks of empty
lines since, and whether its last line starts with a blank. -/
private structure BlockText where
  text : List Char
  lastBreak : Option Char
  emptyLines : List Char
  startsBlank : Bool

namespace BlockText

private def addLine (literal : Bool) (block : BlockText) (line : List Char)
    (lineBreak : Option Char) : BlockText :=
  let startsBlank := line.head?.any isBlank
  let fold := !literal && block.lastBreak == some '\n' && !block.startsBlank && !startsBlank
  let joint :=
    if fold then (if block.emptyLines.isEmpty then [' '] else []) else block.lastBreak.toList
  { text := line.reverse ++ block.emptyLines ++ joint ++ block.text
    lastBreak := lineBreak
    emptyLines := []
    startsBlank }

private def finish (chomping : Chomping) (block : BlockText) : String :=
  let tail := match chomping with
    | .strip => []
    | .clip => block.lastBreak.toList
    | .keep => block.emptyLines ++ block.lastBreak.toList
  String.ofList (tail ++ block.text).reverse

end BlockText

private def scanLines (literal : Bool) (indent : Nat) (block : BlockText) :
    Source → Option (BlockText × Source)
  | [] => some (block, [])
  | m :: rest =>
    let line := takeLine (m :: rest)
    let margin := min indent (line.text.takeWhile (· == ' ')).length
    match line.text.drop margin, line.lineBreak with
    | [], none => some (block, [])
    | [], some c =>
      scanLines literal indent { block with emptyLines := c :: block.emptyLines } line.rest
    | c :: content, _ =>
      if margin < indent then if c = '\t' then none else some (block, m :: rest)
      else scanLines literal indent (block.addLine literal (c :: content) line.lineBreak) line.rest
termination_by source => source.length
decreasing_by
  all_goals
    have := length_rest_takeLine_le (m :: rest)
    simp only [List.length_cons] at this ⊢
    omega

/-- The marks behind the indicator of a block scalar, in either order: what happens to its last line
breaks, and how much deeper than its surroundings it is indented. -/
private def scanHeader (source : Source) : Option (Chomping × Option Nat × Source) := do
  let (chomping, source) := takeChomping source
  let (indent, source) ← takeIndent source
  match chomping with
  | some chomping => return (chomping, indent, source)
  | none =>
    if indent.isSome then
      let (chomping, source) := takeChomping source
      return (chomping.getD .clip, indent, source)
    else return (.clip, none, source)
where
  takeChomping : Source → Option Chomping × Source
    | m :: rest =>
      if m.char = '+' then (some .keep, rest)
      else if m.char = '-' then (some .strip, rest)
      else (none, m :: rest)
    | [] => (none, [])
  takeIndent : Source → Option (Option Nat × Source)
    | m :: rest =>
      if m.char = '0' then none
      else if m.char.isDigit then some (some (m.char.toNat - '0'.toNat), rest)
      else some (none, m :: rest)
    | [] => some (none, [])

/-- The text of a block scalar and what follows it, from behind its indicator. `parent` is the
indentation of what surrounds it; the outermost level has none. -/
def scanBlock (literal : Bool) (parent : Option Nat) (source : Source) :
    Option (String × Source) := do
  let (chomping, deeper, source) ← scanHeader source
  let source := source.dropLineRest
  guard source.atLineEnd
  let source : Source := source.tail
  let indent ←
    match deeper with
    | some n => some (parent.getD 0 + n)
    | none => detectIndent (max 1 (parent.elim 0 (· + 1))) source
  let (block, rest) ← scanLines literal indent ⟨[], none, [], false⟩ source
  return (block.finish chomping, rest)

end Conform.Yaml
