import Conform.Yaml.Lexeme.Gap

namespace Conform.Yaml

structure PlainScalar where
  text : String
  endsLine : Bool
  rest : Source

private def isFlowIndicator (c : Char) : Bool :=
  c == ',' || c == '[' || c == ']' || c == '{' || c == '}'

/-- Goes on with a plain scalar. Lines after the first need at least `indent` columns, unless
brackets are open (`flow`). The text so far is in reverse. -/
def scanPlain (flow : Bool) (indent : Nat) (text : List Char) (gap : Gap) :
    Source → Option PlainScalar
  | [] => some ⟨String.ofList text.reverse, gap.hasBreak, []⟩
  | m :: rest =>
    let c := m.char
    if isBlank c then
      if gap.hasBreak && c == '\t' && m.column < indent then none
      else scanPlain flow indent text (gap.addBlank c) rest
    else if isBreak c then scanPlain flow indent text (gap.addBreak c) rest
    else if (!gap.isNone && !flow && m.column < indent) || Source.atDocumentMark (m :: rest) ||
        (!gap.isNone && c == '#') then
      some ⟨String.ofList text.reverse, gap.hasBreak, m :: rest⟩
    else if flow && c == ':' && Source.headIs (fun c => isFlowIndicator c || c == '?') rest then
      none
    else if (c == ':' && Source.atGap rest) || (flow && isFlowIndicator c) then
      some ⟨String.ofList text.reverse, gap.hasBreak, m :: rest⟩
    else scanPlain flow indent (c :: gap.joined ++ text) .none rest

end Conform.Yaml
