import Conform.Numeric.Numeral

/-!
Numbers of a document: integers of 64 bits, signed or unsigned, and finite binary numbers. The two
forms stay apart, `1` is not written `1.0`, but they can be equal in value.
-/

namespace Conform

abbrev InIntegerRange (n : Int) : Prop := -0x8000000000000000 ≤ n ∧ n < 0x10000000000000000

inductive Number where
  | int (n : Int) (inRange : InIntegerRange n)
  | float (x : Binary64)
deriving DecidableEq

namespace Number

/-- An integer in range is kept; one beyond it becomes the nearest binary number. -/
def ofInt (n : Int) : Number :=
  if h : InIntegerRange n then .int n h else .float (.ofInt n)

theorem ofInt_of_inRange {n : Int} (h : InIntegerRange n) : ofInt n = .int n h := dif_pos h

def isFloat : Number → Bool
  | .int _ _ => false
  | .float _ => true

def signed? : Number → Option Int
  | .int n _ => if n < 0x8000000000000000 then some n else none
  | .float _ => none

def unsigned? : Number → Option Nat
  | .int n _ => if 0 ≤ n then some n.toNat else none
  | .float _ => none

def toBinary64 : Number → Binary64
  | .int n _ => .ofInt n
  | .float x => x

/-- Equality in value. Two integers compare exactly; once a float takes part both sides compare as
binary numbers. -/
def agrees (a b : Number) : Bool :=
  match a.signed?, b.signed? with
  | some m, some n => m == n
  | _, _ =>
    match a.unsigned?, b.unsigned? with
    | some m, some n => m == n
    | _, _ => (a.isFloat || b.isFloat) && a.toBinary64.numericEq b.toBinary64

/-- The number that a numeral denotes: an integer in range if it has neither fraction nor exponent,
and otherwise the binary number that `float?` reads. Negative zero is no integer. -/
def ofNumeral? (float? : Numeral → Option Binary64) (numeral : Numeral) : Option Number :=
  let n := numeral.wholeValue
  if h : numeral.isWhole ∧ InIntegerRange n ∧ ¬(n = 0 ∧ numeral.isNegative) then
    some (.int n h.2.1)
  else (float? numeral).map .float

end Number
end Conform
