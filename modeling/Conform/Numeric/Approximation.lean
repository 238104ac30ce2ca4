import Conform.Numeric.Numeral

/-!
A quick reading of numerals, whose result can lie some units in the last place away from the nearest
binary number. Of the digits it keeps the leading ones that fit in a word of 64 bits, and it scales
them by powers of ten that are binary numbers themselves, so that every step rounds.
-/

namespace Conform

namespace Binary64

private def powerOfTen (n : Nat) : Binary64 :=
  (ofRatio? false (tenTo n) 1).getD (greatest false)

private def scaleUp? (x : Binary64) (places : Nat) : Option Binary64 :=
  if places ≤ 308 then x.mul? (powerOfTen places)
  else if x.magnitude = 0 then some x
  else none

private def scaleDown? (x : Binary64) (places : Nat) : Option Binary64 :=
  if places ≤ 308 then x.div? (powerOfTen places)
  else if x.magnitude = 0 then some x
  else (x.div? (powerOfTen 308)).bind fun x => scaleDown? x (places - 308)
termination_by places
decreasing_by omega

end Binary64

namespace Numeral

/-- Appends digits to a number as long as it fits in a word, and gives the digits left over. -/
private def appendDigits (n : Nat) : List Char → Nat × List Char
  | [] => (n, [])
  | c :: rest =>
    let appended := 10 * n + (c.toNat - '0'.toNat)
    if appended < 0x10000000000000000 then appendDigits appended rest else (n, c :: rest)

def approximate? (n : Numeral) : Option Binary64 :=
  let fraction := n.fraction.getD []
  let (digits, wholeRest) := appendDigits 0 n.whole
  let (digits, fractionRest) := appendDigits digits fraction
  let exponent := n.exponentValue + wholeRest.length + fractionRest.length - fraction.length
  (Binary64.ofRatio? n.isNegative digits 1).bind fun x =>
    if 0 ≤ exponent then x.scaleUp? exponent.toNat else x.scaleDown? (-exponent).toNat

end Numeral
end Conform
