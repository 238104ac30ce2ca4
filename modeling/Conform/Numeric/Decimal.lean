import Conform.Numeric.Binary64

namespace Conform

/-- `digits * 10 ^ exponent`. -/
structure Decimal where
  digits : Nat
  exponent : Int
deriving DecidableEq

def digitCount (n : Nat) : Nat :=
  if n = 0 then 0 else digitCount (n / 10) + 1

def tenTo (n : Nat) : Nat := Nat.pow 10 n

namespace Decimal

/-- The binary number nearest to `± d`, or `none` where that is not finite. A value below
`10 ^ (-330)` rounds to zero and one of at least `10 ^ 310` overflows, so no power outside that
range is ever computed. -/
def toBinary64? (negative : Bool) (d : Decimal) : Option Binary64 :=
  let places := digitCount d.digits + d.exponent
  if d.digits = 0 ∨ places < -330 then some (Binary64.zero negative)
  else if 310 < places then none
  else
    Binary64.ofRatio? negative
      (d.digits * tenTo d.exponent.toNat) (tenTo (-d.exponent).toNat)

def strip (digits : Nat) (exponent : Int) : Decimal :=
  if h : digits ≠ 0 ∧ digits % 10 = 0 then strip (digits / 10) (exponent + 1)
  else ⟨digits, exponent⟩
termination_by digits
decreasing_by omega

end Decimal

inductive Tie where
  | up
  | even

namespace Binary64

/-- The ratios `num / den` that round to one binary number: from `low` to `high`, ends included when
`closed`. -/
structure RoundingInterval where
  low : Nat
  value : Nat
  high : Nat
  den : Nat
  closed : Bool

/-- The reals nearest to `|x|` lie between the midpoints to its neighbours. The lower neighbour is
only half as far at a power of two above the subnormal numbers. -/
def roundingInterval (x : Binary64) : RoundingInterval :=
  let significand := x.significand
  let unit := x.exponent - 2
  let scale := 1 <<< unit.toNat
  let below := if significand = 1 <<< 52 ∧ -1074 < x.exponent then 1 else 2
  { low := (4 * significand - below) * scale
    value := 4 * significand * scale
    high := (4 * significand + 2) * scale
    den := 1 <<< (-unit).toNat
    closed := significand % 2 == 0 }

namespace RoundingInterval

/-- The `k` with `10 ^ (k - 1) ≤ value / den < 10 ^ k`. -/
def decimalPlaces (r : RoundingInterval) : Int :=
  if r.den ≤ r.value then digitCount (r.value / r.den)
  else 1 - digitCount ((r.den - 1) / r.value)

def admits (r : RoundingInterval) (digits : Nat) (exponent : Int) : Bool :=
  let point := digits * tenTo exponent.toNat * r.den
  let scale := tenTo (-exponent).toNat
  if r.closed then r.low * scale ≤ point && point ≤ r.high * scale
  else r.low * scale < point && point < r.high * scale

/-- The decimal of at most `count` digits that reads back and lies nearest to the value, if there
is one: only the two neighbours of the value on that grid can qualify. -/
def nearestWith? (r : RoundingInterval) (tie : Tie) (count : Nat) : Option Decimal :=
  let exponent := r.decimalPlaces - count
  let value := r.value * tenTo (-exponent).toNat
  let grid := tenTo exponent.toNat * r.den
  let digits := value / grid
  let roundUp :=
    match compare (2 * value) ((2 * digits + 1) * grid), tie with
    | .lt, _ => false
    | .gt, _ => true
    | .eq, .up => true
    | .eq, .even => digits % 2 == 1
  match r.admits digits exponent, r.admits (digits + 1) exponent with
  | true, true => some (Decimal.strip (if roundUp then digits + 1 else digits) exponent)
  | true, false => some (Decimal.strip digits exponent)
  | false, true => some (Decimal.strip (digits + 1) exponent)
  | false, false => none

end RoundingInterval

/-- The decimal with the fewest digits that reads back as `|x|`, the nearest one of those; seventeen
digits always suffice. -/
def shortest (tie : Tie) (x : Binary64) : Decimal :=
  if x.magnitude = 0 then ⟨0, 0⟩
  else
    let interval := x.roundingInterval
    ((List.range' 1 17).findSome? (interval.nearestWith? tie)).getD ⟨0, 0⟩

end Binary64
end Conform
