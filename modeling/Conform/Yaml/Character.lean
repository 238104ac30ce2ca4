/-!
Characters of a YAML stream with their places. Line breaks are single characters here: each of the
ways to end a line is a line feed, except that line and paragraph separators stay themselves.
-/

namespace Conform.Yaml

/-- A character and where it stands. `left` counts the bytes from here to the end; lines and columns
start at zero. -/
structure Located where
  char : Char
  left : Nat
  line : Nat
  column : Nat

abbrev Source := List Located

def isBreak (c : Char) : Bool := c == '\n' || c == '\u2028' || c == '\u2029'

def isBlank (c : Char) : Bool := c == ' ' || c == '\t'

def byteOrderMark : Char := '\ufeff'

def isNameChar (c : Char) : Bool := c.isAlphanum || c == '_' || c == '-'

private def isAllowed (c : Char) : Bool :=
  let n := c.toNat
  n == 0x09 || n == 0x0A || n == 0x0D || (0x20 ≤ n && n ≤ 0x7E) || n == 0x85 ||
    (0xA0 ≤ n && n ≤ 0xD7FF) || (0xE000 ≤ n && n ≤ 0xFFFD) || 0x10000 ≤ n

private def locateFrom (left line column : Nat) : List Char → Source
  | [] => []
  | '\r' :: '\n' :: rest => ⟨'\n', left, line, column⟩ :: locateFrom (left - 2) (line + 1) 0 rest
  | c :: rest =>
    let after := left - c.utf8Size
    let c := if c = '\r' ∨ c = '\x85' then '\n' else c
    ⟨c, left, line, column⟩ ::
      if isBreak c then locateFrom after (line + 1) 0 rest
      else locateFrom after line (column + 1) rest

/-- The characters of a text, unless a control character is among them. -/
def Source.ofText? (text : String) : Option Source :=
  if text.toList.all isAllowed then some (locateFrom text.utf8ByteSize 0 0 text.toList) else none

namespace Source

def left : Source → Nat
  | m :: _ => m.left
  | [] => 0

def headIs (p : Char → Bool) : Source → Bool
  | m :: _ => p m.char
  | [] => false

def atGap : Source → Bool
  | m :: _ => isBlank m.char || isBreak m.char
  | [] => true

def atLineEnd : Source → Bool
  | m :: _ => isBreak m.char
  | [] => true

def atDocumentMark : Source → Bool
  | a :: b :: c :: rest =>
    a.column == 0 && a.char == b.char && b.char == c.char && (a.char == '-' || a.char == '.') &&
      atGap rest
  | _ => false

def dropWhile (p : Char → Bool) (source : Source) : Source :=
  List.dropWhile (fun m => p m.char) source

def takeWhile (p : Char → Bool) (source : Source) : List Char :=
  (List.takeWhile (fun m => p m.char) source).map (·.char)

def dropLineRest (source : Source) : Source :=
  let source := source.dropWhile isBlank
  if source.headIs (· == '#') then source.dropWhile (!isBreak ·) else source

end Source
end Conform.Yaml
