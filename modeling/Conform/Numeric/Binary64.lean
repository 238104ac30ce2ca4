/-!
Finite numbers of the 64-bit binary interchange format, kept as exact integers: no operation here
goes through machine floating point, so every value and every rounding can be reasoned about.
-/

namespace Conform

/-- A finite 64-bit binary number. `magnitude` is the encoding without its sign bit, eleven exponent
bits above fifty-two fraction bits, so it grows with the absolute value and stays below the
encoding of infinity. -/
structure Binary64 where
  negative : Bool
  magnitude : Nat
  finite : magnitude < 2047 <<< 52
deriving DecidableEq

namespace Binary64

def significand (x : Binary64) : Nat :=
  if x.magnitude < 1 <<< 52 then x.magnitude else 1 <<< 52 + x.magnitude % (1 <<< 52)

def exponent (x : Binary64) : Int :=
  if x.magnitude < 1 <<< 52 then -1074 else (x.magnitude >>> 52 : Nat) - 1075

def zero (negative : Bool) : Binary64 := ⟨negative, 0, by decide⟩

/-- Equality of values: the two zeros are one number. -/
def numericEq (x y : Binary64) : Bool :=
  x.magnitude == y.magnitude && (x.negative == y.negative || x.magnitude == 0)

/-- The integer nearest to `num / den`; halfway goes to the even neighbour. -/
def roundHalfEven (num den : Nat) : Nat :=
  let quotient := num / den
  let twice := 2 * (num % den)
  if den < twice ∨ (twice = den ∧ quotient % 2 = 1) then quotient + 1 else quotient

private def rescale (num den : Nat) (exponent : Int) : Nat × Nat :=
  (num <<< (-exponent).toNat, den <<< exponent.toNat)

/-- Exponent at which `num / den` has a significand of fifty-three bits, but never below the
exponent of the subnormal numbers. -/
private def unitExponent (num den : Nat) : Int :=
  let guess : Int := (num.log2 : Int) - den.log2 - 52
  let (n, d) := rescale num den guess
  max (-1074) (if n < d <<< 52 then guess - 1 else guess)

/-- Magnitude nearest to the positive ratio `num / den`, halfway to even. It is at least the
encoding of infinity when the ratio rounds beyond the greatest finite number. -/
def nearestMagnitude (num den : Nat) : Nat :=
  if num = 0 then 0
  else
    let exponent := unitExponent num den
    let (n, d) := rescale num den exponent
    (exponent + 1074).toNat <<< 52 + roundHalfEven n d

private theorem unitExponent_one {n : Nat} (h : n ≠ 0) :
    unitExponent n 1 = (n.log2 : Int) - 52 := by
  have atLeast : 1 <<< (n.log2 - 52) <<< 52 ≤ n <<< (52 - n.log2) := by
    rw [Nat.shiftLeft_eq, Nat.shiftLeft_eq, Nat.shiftLeft_eq, Nat.one_mul, ← Nat.pow_add,
      show n.log2 - 52 + 52 = n.log2 + (52 - n.log2) by omega, Nat.pow_add]
    exact Nat.mul_le_mul_right _ (Nat.log2_self_le h)
  have down : (-((n.log2 : Int) - (0 : Nat) - 52)).toNat = 52 - n.log2 := by omega
  have up : ((n.log2 : Int) - (0 : Nat) - 52).toNat = n.log2 - 52 := by omega
  have one : Nat.log2 1 = 0 := rfl
  rw [unitExponent, one]
  simp only [rescale, down, up, if_neg (Nat.not_lt.mpr atLeast)]
  omega

/-- An integer keeps its fifty-three highest bits. -/
theorem nearestMagnitude_one {n : Nat} (h : n ≠ 0) :
    nearestMagnitude n 1 = (n.log2 + 1022) <<< 52 +
      roundHalfEven (n <<< (52 - n.log2)) (1 <<< (n.log2 - 52)) := by
  have down : (-((n.log2 : Int) - 52)).toNat = 52 - n.log2 := by omega
  have up : ((n.log2 : Int) - 52).toNat = n.log2 - 52 := by omega
  have biased : ((n.log2 : Int) - 52 + 1074).toNat = n.log2 + 1022 := by omega
  rw [nearestMagnitude, if_neg h, unitExponent_one h]
  simp only [rescale, down, up, biased]

def ofRatio? (negative : Bool) (num den : Nat) : Option Binary64 :=
  let magnitude := nearestMagnitude num den
  if finite : magnitude < 2047 <<< 52 then some ⟨negative, magnitude, finite⟩ else none

def mul? (x y : Binary64) : Option Binary64 :=
  let (num, den) := rescale (x.significand * y.significand) 1 (-(x.exponent + y.exponent))
  ofRatio? (x.negative != y.negative) num den

def div? (x y : Binary64) : Option Binary64 :=
  let (num, den) := rescale x.significand y.significand (y.exponent - x.exponent)
  ofRatio? (x.negative != y.negative) num den

def greatest (negative : Bool) : Binary64 := ⟨negative, 2047 <<< 52 - 1, by decide⟩

def ofInt (n : Int) : Binary64 :=
  (ofRatio? (n < 0) n.natAbs 1).getD (greatest (n < 0))

end Binary64
end Conform
