import Conform.Json.Basic

/-!
Tokens of written JSON. Adjacent values are never legal, so a maximal run of characters that are
neither blank, nor punctuation, nor a quote has to be one literal or number.
-/

namespace Conform.Json

inductive Token where
  | openArray
  | closeArray
  | openObject
  | closeObject
  | comma
  | colon
  | string (s : String)
  | scalar (value : Json)
  /-- A string or number that is well formed and has no value. -/
  | unreadable

namespace Token

private def isSpace (c : Char) : Bool := c == ' ' || c == '\t' || c == '\n' || c == '\r'

private def punctuation? : Char → Option Token
  | '[' => some .openArray
  | ']' => some .closeArray
  | '{' => some .openObject
  | '}' => some .closeObject
  | ',' => some .comma
  | ':' => some .colon
  | _ => none

private def hexValue? (c : Char) : Option Nat :=
  if '0' ≤ c ∧ c ≤ '9' then some (c.toNat - '0'.toNat)
  else if 'a' ≤ c ∧ c ≤ 'f' then some (c.toNat - 'a'.toNat + 10)
  else if 'A' ≤ c ∧ c ≤ 'F' then some (c.toNat - 'A'.toNat + 10)
  else none

private def codeUnit? (digits : List Char) : Option Nat :=
  digits.foldlM (fun n c => (hexValue? c).map (16 * n + ·)) 0

private def simpleEscape? : Char → Option Char
  | '"' => some '"'
  | '\\' => some '\\'
  | '/' => some '/'
  | 'b' => some '\x08'
  | 'f' => some '\x0c'
  | 'n' => some '\n'
  | 'r' => some '\r'
  | 't' => some '\t'
  | _ => none

private def isHighSurrogate (unit : Nat) : Bool := 0xD800 ≤ unit && unit < 0xDC00

private def isLowSurrogate (unit : Nat) : Bool := 0xDC00 ≤ unit && unit < 0xE000

/-- A part of a string: a character, or a code unit of 16 bits given by number. -/
private inductive StringPart where
  | char (c : Char)
  | unit (code : Nat)

private def stringParts (done : List StringPart) : List Char → Option (List StringPart)
  | [] => some done.reverse
  | '\\' :: 'u' :: a :: b :: c :: d :: rest =>
    match codeUnit? [a, b, c, d] with
    | none => none
    | some code => stringParts (.unit code :: done) rest
  | '\\' :: c :: rest =>
    match simpleEscape? c with
    | none => none
    | some c => stringParts (.char c :: done) rest
  | c :: rest => if c = '\\' then none else stringParts (.char c :: done) rest

/-- The characters that parts make. Surrogates have to come in pairs. -/
private def joinParts (done : List Char) : List StringPart → Option (List Char)
  | [] => some done.reverse
  | .char c :: rest => joinParts (c :: done) rest
  | .unit code :: rest =>
    if isLowSurrogate code then none
    else if isHighSurrogate code then
      match rest with
      | .unit low :: rest =>
        if isLowSurrogate low then
          let code := 0x10000 + (code - 0xD800) * 0x400 + (low - 0xDC00)
          joinParts (Char.ofNat code :: done) rest
        else none
      | _ => none
    else joinParts (Char.ofNat code :: done) rest

private def quoted? (body : List Char) : Option Token :=
  (stringParts [] body).map fun parts =>
    (joinParts [] parts).elim .unreadable fun chars => .string (String.ofList chars)

/-- JSON's numerals: no plus sign before, no superfluous zero, and no bare point. -/
private def isJsonNumeral (n : Numeral) : Bool :=
  n.sign != some '+' && n.whole != [] && (n.whole.length == 1 || n.whole.head? != some '0') &&
    n.fraction != some [] && decide n.HasDigits

private def bare? (float? : Numeral → Option Binary64) (text : List Char) : Option Token :=
  match String.ofList text with
  | "null" => some (.scalar .null)
  | "true" => some (.scalar (.bool true))
  | "false" => some (.scalar (.bool false))
  | _ => do
    let numeral ← Numeral.ofChars? text
    guard (isJsonNumeral numeral)
    return (Number.ofNumeral? float? numeral).elim .unreadable fun n => .scalar (.number n)

private inductive Pending where
  | nothing
  | string (escaped : Bool) (body : List Char)
  | bare (text : List Char)

private def start (done : List Token) (c : Char) : List Token × Pending :=
  if isSpace c then (done, .nothing)
  else if c = '"' then (done, .string false [])
  else
    match punctuation? c with
    | some token => (token :: done, .nothing)
    | none => (done, .bare [c])

private def step (float? : Numeral → Option Binary64) :
    List Token × Pending → Char → Option (List Token × Pending)
  | (done, .nothing), c => some (start done c)
  | (done, .string true body), c => some (done, .string false (c :: body))
  | (done, .string false body), c =>
    if c = '"' then (quoted? body.reverse).map fun token => (token :: done, .nothing)
    else if c < ' ' then none
    else some (done, .string (c == '\\') (c :: body))
  | (done, .bare text), c =>
    if isSpace c || c == '"' || (punctuation? c).isSome then
      (bare? float? text.reverse).map fun token => start (token :: done) c
    else some (done, .bare (c :: text))

private def finish (float? : Numeral → Option Binary64) :
    List Token × Pending → Option (List Token)
  | (done, .nothing) => some done.reverse
  | (_, .string _ _) => none
  | (done, .bare text) => (bare? float? text.reverse).map fun token => (token :: done).reverse

/-- The tokens of a text, unless some part of it is no token. Numerals that are no integers have the
values that `float?` gives. -/
def ofText? (float? : Numeral → Option Binary64) (text : String) : Option (List Token) := do
  finish float? (← text.toList.foldlM (step float?) ([], .nothing))

end Token
end Conform.Json
