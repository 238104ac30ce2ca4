import Conform.Yaml.Lexeme.Gap

namespace Conform.Yaml

private def simpleEscape? : Char → Option Char
  | '0' => some '\x00'
  | 'a' => some '\x07'
  | 'b' => some '\x08'
  | 't' => some '\t'
  | '\t' => some '\t'
  | 'n' => some '\n'
  | 'v' => some '\x0b'
  | 'f' => some '\x0c'
  | 'r' => some '\r'
  | 'e' => some '\x1b'
  | ' ' => some ' '
  | '"' => some '"'
  | '/' => some '/'
  | '\\' => some '\\'
  | 'N' => some '\x85'
  | '_' => some '\xa0'
  | 'L' => some '\u2028'
  | 'P' => some '\u2029'
  | _ => none

private def codeLength? : Char → Option Nat
  | 'x' => some 2
  | 'u' => some 4
  | 'U' => some 8
  | _ => none

def hexDigit? (c : Char) : Option Nat :=
  if '0' ≤ c ∧ c ≤ '9' then some (c.toNat - '0'.toNat)
  else if 'a' ≤ c ∧ c ≤ 'f' then some (c.toNat - 'a'.toNat + 10)
  else if 'A' ≤ c ∧ c ≤ 'F' then some (c.toNat - 'A'.toNat + 10)
  else none

private inductive QuotedPart where
  | text
  | gap (gap : Gap)
  | escape
  | code (digits : Nat) (value : Nat)

/-- Goes on with a scalar in double quotes. The text so far is in reverse. -/
private def scanDouble (text : List Char) : QuotedPart → Source → Option (String × Source)
  | _, [] => none
  | .escape, m :: rest =>
    if isBreak m.char then scanDouble text (.gap (.breaks none [])) rest
    else
      match simpleEscape? m.char, codeLength? m.char with
      | some c, _ => scanDouble (c :: text) .text rest
      | none, some digits => scanDouble text (.code digits 0) rest
      | none, none => none
  | .code digits value, m :: rest =>
    match hexDigit? m.char with
    | none => none
    | some digit =>
      let value := 16 * value + digit
      if 1 < digits then scanDouble text (.code (digits - 1) value) rest
      else if value.isValidChar then scanDouble (Char.ofNat value :: text) .text rest
      else none
  | part, m :: rest =>
    let c := m.char
    let gap := match part with
      | .gap gap => gap
      | _ => .none
    if isBlank c then scanDouble text (.gap (gap.addBlank c)) rest
    else if isBreak c then scanDouble text (.gap (gap.addBreak c)) rest
    else if Source.atDocumentMark (m :: rest) then none
    else
      let text := gap.joined ++ text
      if c = '"' then some (String.ofList text.reverse, rest)
      else if c = '\\' then scanDouble text .escape rest
      else scanDouble (c :: text) .text rest

private def scanSingle (text : List Char) (gap : Gap) : Source → Option (String × Source)
  | [] => none
  | m :: rest =>
    let c := m.char
    if isBlank c then scanSingle text (gap.addBlank c) rest
    else if isBreak c then scanSingle text (gap.addBreak c) rest
    else if Source.atDocumentMark (m :: rest) then none
    else
      let text := gap.joined ++ text
      if c = '\'' then
        match rest with
        | next :: rest' =>
          if next.char = '\'' then scanSingle ('\'' :: text) .none rest'
          else some (String.ofList text.reverse, next :: rest')
        | [] => some (String.ofList text.reverse, [])
      else scanSingle (c :: text) .none rest

def scanQuoted (double : Bool) (source : Source) : Option (String × Source) :=
  if double then scanDouble [] .text source else scanSingle [] .none source

end Conform.Yaml
