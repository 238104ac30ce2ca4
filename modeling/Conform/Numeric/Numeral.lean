import Conform.Numeric.Decimal

namespace Conform

/-- The parts of a numeral. `fraction` and `exponent` are present when their marker was written. -/
structure Numeral where
  sign : Option Char
  whole : List Char
  fraction : Option (List Char)
  exponent : Option (Option Char × List Char)

namespace Numeral

def digitsValue (digits : List Char) : Nat :=
  digits.foldl (fun n c => 10 * n + (c.toNat - '0'.toNat)) 0

private def takeSign : List Char → Option Char × List Char
  | '+' :: rest => (some '+', rest)
  | '-' :: rest => (some '-', rest)
  | rest => (none, rest)

private def takeFraction : List Char → Option (List Char) × List Char
  | '.' :: rest => (some (rest.takeWhile Char.isDigit), rest.dropWhile Char.isDigit)
  | rest => (none, rest)

private def takeExponent : List Char → Option (Option Char × List Char) × List Char
  | c :: rest =>
    if c = 'e' ∨ c = 'E' then
      let (sign, rest) := takeSign rest
      (some (sign, rest.takeWhile Char.isDigit), rest.dropWhile Char.isDigit)
    else (none, c :: rest)
  | [] => (none, [])

def ofChars? (text : List Char) : Option Numeral :=
  let (sign, text) := takeSign text
  let whole := text.takeWhile Char.isDigit
  let (fraction, text) := takeFraction (text.dropWhile Char.isDigit)
  let (exponent, text) := takeExponent text
  if text.isEmpty then some ⟨sign, whole, fraction, exponent⟩ else none

def isNegative (n : Numeral) : Bool := n.sign == some '-'

def isWhole (n : Numeral) : Bool := n.fraction.isNone && n.exponent.isNone

def wholeValue (n : Numeral) : Int :=
  let value : Int := digitsValue n.whole
  if n.isNegative then -value else value

def exponentValue (n : Numeral) : Int :=
  match n.exponent with
  | none => 0
  | some (sign, digits) =>
    let value : Int := digitsValue digits
    if sign == some '-' then -value else value

def toDecimal (n : Numeral) : Decimal :=
  let fraction := n.fraction.getD []
  ⟨digitsValue (n.whole ++ fraction), n.exponentValue - fraction.length⟩

def toBinary64? (n : Numeral) : Option Binary64 :=
  n.toDecimal.toBinary64? n.isNegative

def HasDigits (n : Numeral) : Prop :=
  (n.whole ≠ [] ∨ n.fraction.getD [] ≠ []) ∧ n.exponent.all (·.2 ≠ [])

instance (n : Numeral) : Decidable n.HasDigits := inferInstanceAs (Decidable (_ ∧ _))

end Numeral

/-- The finite number that a text denotes: a numeral with digits on some side of its point, if it
has one. Texts of anything else, infinities included, denote none. -/
def Binary64.ofText? (text : String) : Option Binary64 := do
  let numeral ← Numeral.ofChars? text.toList
  guard numeral.HasDigits
  numeral.toBinary64?

end Conform
