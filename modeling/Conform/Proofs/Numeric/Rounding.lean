import Conform.Numeric.Binary64
import Mathlib.Algebra.Order.Field.Power
import Mathlib.Algebra.Order.Ring.Abs
import Mathlib.Data.Rat.Cast.Order
import Mathlib.Tactic.FieldSimp
import Mathlib.Tactic.Linarith
import Mathlib.Tactic.NormNum
import Mathlib.Tactic.Ring

namespace Conform.Binary64

variable {x y : Binary64}

theorem shiftLeft_52 : 1 <<< 52 = 2 ^ 52 := rfl

theorem significand_lt (x : Binary64) : x.significand < 2 ^ 53 := by
  rw [significand, shiftLeft_52]
  split <;> omega

theorem neg_le_exponent (x : Binary64) : -1074 ≤ x.exponent := by
  rw [exponent, shiftLeft_52, Nat.shiftRight_eq_div_pow]
  split <;> omega

/-- Only the numbers nearest to zero have significands of fewer bits. -/
theorem exponent_eq_or_le_significand (x : Binary64) :
    x.exponent = -1074 ∨ 2 ^ 52 ≤ x.significand := by
  rw [exponent, significand, shiftLeft_52]
  split <;> omega

theorem magnitude_eq (x : Binary64) :
    (x.magnitude : ℤ) = (x.exponent + 1074) * 2 ^ 52 + x.significand := by
  rw [exponent, significand, shiftLeft_52, Nat.shiftRight_eq_div_pow]
  split <;> omega

def size (x : Binary64) : ℚ := x.significand * 2 ^ x.exponent

def value (x : Binary64) : ℚ := if x.negative then -x.size else x.size

theorem size_nonneg (x : Binary64) : 0 ≤ x.size := by
  unfold size
  positivity

theorem size_lt_of_exponent_lt (normal : 2 ^ 52 ≤ y.significand)
    (h : x.exponent < y.exponent) : x.size < y.size := by
  have bound : (x.significand : ℚ) < 2 ^ 53 := by exact_mod_cast x.significand_lt
  have normal' : (2 ^ 52 : ℚ) ≤ y.significand := by exact_mod_cast normal
  have next : (2 : ℚ) ^ (x.exponent + 1) ≤ 2 ^ y.exponent :=
    zpow_le_zpow_right₀ one_le_two h
  calc x.size < 2 ^ 53 * 2 ^ x.exponent := mul_lt_mul_of_pos_right bound (by positivity)
    _ = 2 ^ 52 * 2 ^ (x.exponent + 1) := by
        rw [zpow_add_one₀ two_ne_zero]
        ring
    _ ≤ y.size := mul_le_mul normal' next (by positivity) (by positivity)

theorem size_lt_of_magnitude_lt (h : x.magnitude < y.magnitude) : x.size < y.size := by
  have hx := x.magnitude_eq
  have hy := y.magnitude_eq
  have least := x.neg_le_exponent
  have least' := y.neg_le_exponent
  have normal := x.exponent_eq_or_le_significand
  have normal' := y.exponent_eq_or_le_significand
  have bound := x.significand_lt
  have bound' := y.significand_lt
  rcases lt_trichotomy x.exponent y.exponent with less | same | greater
  · exact size_lt_of_exponent_lt (by omega) less
  · have smaller : (x.significand : ℚ) < y.significand := by
      rw [same] at hx
      exact_mod_cast (show x.significand < y.significand by omega)
    rw [size, size, same]
    exact mul_lt_mul_of_pos_right smaller (by positivity)
  · omega

theorem size_eq_iff : x.size = y.size ↔ x.magnitude = y.magnitude := by
  constructor
  · intro same
    rcases lt_trichotomy x.magnitude y.magnitude with less | same | greater
    · exact absurd same (size_lt_of_magnitude_lt less).ne
    · exact same
    · exact absurd same (size_lt_of_magnitude_lt greater).ne'
  · intro same
    rw [size, size, significand, significand, exponent, exponent, same]

theorem size_eq_zero_iff : x.size = 0 ↔ x.magnitude = 0 := by
  have zeroSize : (zero false).size = 0 := by simp [size, significand, zero]
  rw [← zeroSize, size_eq_iff]
  rfl

theorem numericEq_iff : x.numericEq y = true ↔ x.value = y.value := by
  have hx := x.size_nonneg
  have hy := y.size_nonneg
  have zeros : x.size = -y.size ↔ x.magnitude = 0 ∧ y.magnitude = 0 := by
    rw [← size_eq_zero_iff, ← size_eq_zero_iff]
    constructor
    · intro h
      constructor <;> linarith
    · rintro ⟨hx, hy⟩
      rw [hx, hy, neg_zero]
  rw [numericEq, value, value]
  cases x.negative <;> cases y.negative
  · simp [size_eq_iff]
  · simp [zeros]
    omega
  · simp [neg_eq_iff_eq_neg, zeros]
    omega
  · simp [size_eq_iff]

/-! Rounding to an integer. -/

theorem roundHalfEven_le (num den : ℕ) :
    num / den ≤ roundHalfEven num den ∧ roundHalfEven num den ≤ num / den + 1 := by
  simp only [roundHalfEven]
  split <;> omega

theorem two_mul_abs_roundHalfEven_sub_le (num : ℕ) {den : ℕ} (h : 0 < den) :
    2 * |(roundHalfEven num den : ℤ) * den - num| ≤ den ∧
      (2 * |(roundHalfEven num den : ℤ) * den - num| = den → Even (roundHalfEven num den)) := by
  have parts : (num : ℤ) = den * (num / den : ℕ) + (num % den : ℕ) := by
    exact_mod_cast (Nat.div_add_mod num den).symm
  have less : num % den < den := Nat.mod_lt num h
  simp only [roundHalfEven]
  rw [parts]
  split
  · rename_i up
    have dist : ((num / den + 1 : ℕ) : ℤ) * den - (den * (num / den : ℕ) + (num % den : ℕ)) =
        den - (num % den : ℕ) := by
      push_cast
      ring
    rw [dist, abs_of_nonneg (by omega), Nat.even_iff]
    omega
  · rename_i down
    have dist : ((num / den : ℕ) : ℤ) * den - (den * (num / den : ℕ) + (num % den : ℕ)) =
        -(num % den : ℕ) := by
      ring
    rw [dist, abs_neg, abs_of_nonneg (by omega), Nat.even_iff]
    omega

theorem abs_roundHalfEven_sub_le (num : ℕ) {den : ℕ} (h : 0 < den) :
    |(roundHalfEven num den : ℚ) - num / den| ≤ 1 / 2 ∧
      (|(roundHalfEven num den : ℚ) - num / den| = 1 / 2 → Even (roundHalfEven num den)) := by
  have positive : (0 : ℚ) < den := by exact_mod_cast h
  obtain ⟨le, even⟩ := two_mul_abs_roundHalfEven_sub_le num h
  have scaled : |(roundHalfEven num den : ℚ) - num / den| =
      |(roundHalfEven num den : ℤ) * den - num| / (den : ℚ) := by
    rw [eq_div_iff positive.ne', ← abs_of_pos positive, ← abs_mul, abs_of_pos positive, sub_mul,
      div_mul_cancel₀ _ positive.ne']
    push_cast
    rfl
  rw [scaled]
  generalize |(roundHalfEven num den : ℤ) * den - num| = distance at le even
  constructor
  · rw [div_le_div_iff₀ positive two_pos]
    exact_mod_cast (by linarith : distance * 2 ≤ 1 * den)
  · intro half
    rw [div_eq_div_iff positive.ne' two_ne_zero] at half
    have half' : distance * 2 = 1 * den := by exact_mod_cast half
    exact even (by linarith)

theorem abs_sub_le_of_abs_sub_le_half {t : ℚ} {q : ℕ} (near : |(q : ℚ) - t| ≤ 1 / 2)
    (even : |(q : ℚ) - t| = 1 / 2 → Even q) (k : ℤ) :
    |(q : ℚ) - t| ≤ |(k : ℚ) - t| ∧ (|(k : ℚ) - t| = |(q : ℚ) - t| → (k : ℚ) ≠ q → Even q) := by
  by_cases same : k = q
  · subst same
    exact ⟨le_refl _, fun _ h => absurd rfl h⟩
  · have apart : (1 : ℚ) ≤ |(k : ℚ) - q| := by
      have : 1 ≤ |k - (q : ℤ)| := Int.one_le_abs (sub_ne_zero.mpr same)
      exact_mod_cast this
    have triangle : |(k : ℚ) - q| ≤ |(k : ℚ) - t| + |(q : ℚ) - t| := by
      rw [abs_sub_comm (q : ℚ) t]
      exact abs_sub_le _ _ _
    exact ⟨by linarith, fun tie _ => even (by linarith)⟩

/-! Rounding an integer. -/

/-- The binary number that is nearest to a rational number. If another is equally near, it is the
one with the even significand. -/
structure IsNearest (x : Binary64) (r : ℚ) : Prop where
  le : ∀ y : Binary64, |x.value - r| ≤ |y.value - r|
  even : ∀ y : Binary64, y.value ≠ x.value → |y.value - r| = |x.value - r| → Even x.significand

theorem isNearest_value (x : Binary64) : x.IsNearest x.value where
  le := fun y => by
    rw [sub_self, abs_zero]
    exact abs_nonneg _
  even := fun y different tie => by
    rw [sub_self, abs_zero, abs_eq_zero, sub_eq_zero] at tie
    exact absurd tie different

theorem isNearest_of_size {r : ℚ} (nearest : ∀ (y : Binary64) (v : ℚ), v = y.size ∨ v = -y.size →
      |x.size - r| ≤ |v - r| ∧ (v ≠ x.size → |v - r| = |x.size - r| → Even x.significand)) :
    x.IsNearest (if x.negative then -r else r) := by
  cases hx : x.negative with
  | false =>
      have own : x.value = x.size := by simp [value, hx]
      have other (y : Binary64) := nearest y y.value <| by
        rw [value]
        cases y.negative <;> simp
      simp only [← own] at other
      exact ⟨fun y => (other y).1, fun y => (other y).2⟩
  | true =>
      have own : x.value = -x.size := by simp [value, hx]
      have mirrored (v : ℚ) : |v - -r| = |-v - r| := by
        rw [← abs_neg]
        congr 1
        ring
      have other (y : Binary64) := nearest y (-y.value) <| by
        rw [value]
        cases y.negative <;> simp
      rw [show x.size = -x.value by rw [own, neg_neg]] at other
      constructor
      · intro y
        rw [if_pos rfl, mirrored, mirrored]
        exact (other y).1
      · intro y different tie
        rw [if_pos rfl, mirrored, mirrored] at tie
        exact (other y).2 (fun h => different (neg_injective h)) tie

theorem exists_multiple_of_le_size {e : ℤ} (large : 2 ^ (e + 52) ≤ x.size) :
    ∃ k : ℤ, x.size = k * 2 ^ e := by
  have bound : (x.significand : ℚ) < 2 ^ (53 : ℤ) := by exact_mod_cast x.significand_lt
  have below : x.size < 2 ^ (53 + x.exponent) := by
    rw [zpow_add₀ two_ne_zero]
    exact mul_lt_mul_of_pos_right bound (by positivity)
  have powers := (zpow_lt_zpow_iff_right₀ one_lt_two).mp (lt_of_le_of_lt large below)
  refine ⟨x.significand * 2 ^ (x.exponent - e).toNat, ?_⟩
  push_cast
  rw [← zpow_natCast, Int.toNat_of_nonneg (by omega), mul_assoc, ← zpow_add₀ two_ne_zero,
    sub_add_cancel, size]

/-- What a significand of fifty-three bits gives, and also the first that is too large for that. -/
theorem size_of_magnitude_eq {k q : ℕ} (h : x.magnitude = k * 2 ^ 52 + q) (normal : 2 ^ 52 ≤ q)
    (bound : q ≤ 2 ^ 53) : x.size = q * 2 ^ ((k : ℤ) - 1074) ∧ (Even q → Even x.significand) := by
  have hx := x.magnitude_eq
  have least := x.neg_le_exponent
  have normal' := x.exponent_eq_or_le_significand
  have bound' := x.significand_lt
  rcases lt_or_eq_of_le bound with less | rfl
  · have significand_eq : x.significand = q := by omega
    have exponent_eq : x.exponent = (k : ℤ) - 1074 := by omega
    rw [size, significand_eq, exponent_eq]
    exact ⟨rfl, id⟩
  · have significand_eq : x.significand = 2 ^ 52 := by omega
    have exponent_eq : x.exponent = (k : ℤ) - 1074 + 1 := by omega
    rw [size, significand_eq, exponent_eq, zpow_add_one₀ two_ne_zero]
    refine ⟨?_, fun _ => by decide⟩
    push_cast
    ring

section Integers

variable {n : ℕ}

def roundedSignificand (n : ℕ) : ℕ := roundHalfEven (n <<< (52 - n.log2)) (1 <<< (n.log2 - 52))

theorem shifted_eq_div (n : ℕ) :
    ((n <<< (52 - n.log2) : ℕ) : ℚ) / (1 <<< (n.log2 - 52) : ℕ) = n / 2 ^ ((n.log2 : ℤ) - 52) := by
  rw [Nat.shiftLeft_eq, Nat.shiftLeft_eq]
  push_cast
  rcases le_total n.log2 52 with small | large
  · rw [Nat.sub_eq_zero_of_le small, show (n.log2 : ℤ) - 52 = -((52 - n.log2 : ℕ) : ℤ) by omega,
      zpow_neg, zpow_natCast]
    field_simp
  · rw [Nat.sub_eq_zero_of_le large, show (n.log2 : ℤ) - 52 = ((n.log2 - 52 : ℕ) : ℤ) by omega,
      zpow_natCast]
    field_simp

theorem shiftLeft_pos (k : ℕ) : 0 < 1 <<< k := by
  rw [Nat.shiftLeft_eq]
  positivity

theorem abs_roundedSignificand_sub_le (n : ℕ) (k : ℤ) :
    let unit : ℚ := 2 ^ ((n.log2 : ℤ) - 52)
    |(roundedSignificand n : ℚ) - n / unit| ≤ |(k : ℚ) - n / unit| ∧
      (|(k : ℚ) - n / unit| = |(roundedSignificand n : ℚ) - n / unit| →
        (k : ℚ) ≠ roundedSignificand n → Even (roundedSignificand n)) := by
  obtain ⟨near, even⟩ :=
    abs_roundHalfEven_sub_le (n <<< (52 - n.log2)) (shiftLeft_pos (n.log2 - 52))
  rw [shifted_eq_div] at near even
  exact abs_sub_le_of_abs_sub_le_half near even k

theorem two_pow_le_of_ne_zero (h : n ≠ 0) : (2 : ℚ) ^ ((n.log2 : ℤ) - 52 + 52) ≤ n := by
  rw [sub_add_cancel, zpow_natCast]
  exact_mod_cast Nat.log2_self_le h

theorem roundedSignificand_bounds (h : n ≠ 0) :
    2 ^ 52 ≤ roundedSignificand n ∧ roundedSignificand n ≤ 2 ^ 53 := by
  have positive := shiftLeft_pos (n.log2 - 52)
  obtain ⟨le, le'⟩ := roundHalfEven_le (n <<< (52 - n.log2)) (1 <<< (n.log2 - 52))
  have scale : 2 ^ n.log2 * 2 ^ (52 - n.log2) = 2 ^ 52 * 1 <<< (n.log2 - 52) := by
    rw [Nat.shiftLeft_eq, one_mul, ← pow_add, ← pow_add]
    congr 1
    omega
  have lower : 2 ^ 52 ≤ n <<< (52 - n.log2) / 1 <<< (n.log2 - 52) := by
    rw [Nat.le_div_iff_mul_le positive, ← scale, Nat.shiftLeft_eq]
    exact Nat.mul_le_mul_right _ (Nat.log2_self_le h)
  have upper : n <<< (52 - n.log2) / 1 <<< (n.log2 - 52) < 2 ^ 53 := by
    rw [Nat.div_lt_iff_lt_mul positive, pow_succ, mul_right_comm, ← scale, Nat.shiftLeft_eq,
      mul_right_comm, ← pow_succ]
    exact Nat.mul_lt_mul_of_pos_right Nat.lt_log2_self (by positivity)
  exact ⟨lower.trans le, le'.trans upper⟩

theorem ofInt_of_ne_zero {z : ℤ} (h : z ≠ 0) (bound : z.natAbs < 2 ^ 64) :
    (ofInt z).negative = decide (z < 0) ∧ (ofInt z).magnitude =
      (z.natAbs.log2 + 1022) * 2 ^ 52 + roundedSignificand z.natAbs := by
  have nonzero : z.natAbs ≠ 0 := Int.natAbs_ne_zero.mpr h
  have log : z.natAbs.log2 < 64 := (Nat.log2_lt nonzero).mpr bound
  have nearest : nearestMagnitude z.natAbs 1 =
      (z.natAbs.log2 + 1022) * 2 ^ 52 + roundedSignificand z.natAbs := by
    rw [nearestMagnitude_one nonzero, Nat.shiftLeft_eq]
    rfl
  have finite : nearestMagnitude z.natAbs 1 < 2047 <<< 52 := by
    have := (roundedSignificand_bounds nonzero).2
    rw [nearest, Nat.shiftLeft_eq]
    omega
  rw [ofInt, ofRatio?, dif_pos finite]
  exact ⟨rfl, nearest⟩

theorem abs_mul_sub {unit : ℚ} (h : 0 < unit) (k r : ℚ) :
    |k * unit - r| = |k - r / unit| * unit := by
  rw [← abs_of_pos h, ← abs_mul, abs_of_pos h, sub_mul, div_mul_cancel₀ _ h.ne']

/-- Numbers from the highest bit of an integer on are multiples of the unit in which it is rounded,
and numbers below lie further away than that bit. -/
theorem roundedSignificand_nearest (h : n ≠ 0) {v : ℚ} (hv : v = y.size ∨ v = -y.size) :
    let rounded : ℚ := roundedSignificand n * 2 ^ ((n.log2 : ℤ) - 52)
    |rounded - n| ≤ |v - n| ∧
      (v ≠ rounded → |v - n| = |rounded - n| → Even (roundedSignificand n)) := by
  have nearest := abs_roundedSignificand_sub_le n
  have highest := two_pow_le_of_ne_zero h
  generalize (n.log2 : ℤ) - 52 = e at nearest highest ⊢
  generalize roundedSignificand n = q at nearest ⊢
  have unit : (0 : ℚ) < 2 ^ e := by positivity
  -- The same for multiples of the unit.
  have onGrid : ∀ k : ℤ, |(q : ℚ) * 2 ^ e - n| ≤ |(k : ℚ) * 2 ^ e - n| ∧
      ((k : ℚ) * 2 ^ e ≠ q * 2 ^ e →
        |(k : ℚ) * 2 ^ e - n| = |(q : ℚ) * 2 ^ e - n| → Even q) := by
    intro k
    obtain ⟨le, tie⟩ := nearest k
    rw [abs_mul_sub unit, abs_mul_sub unit]
    refine ⟨mul_le_mul_of_nonneg_right le unit.le, fun different same => ?_⟩
    exact tie (mul_right_cancel₀ unit.ne' same) fun h => different (h ▸ rfl)
  rcases lt_or_ge v (2 ^ (e + 52)) with below | above
  · have top := (onGrid (2 ^ 52)).1
    have bit : (((2 ^ 52 : ℤ) : ℚ)) * 2 ^ e = 2 ^ (e + 52) := by
      rw [zpow_add₀ two_ne_zero, mul_comm]
      norm_num
    rw [bit, abs_of_nonpos (by linarith : (2 : ℚ) ^ (e + 52) - n ≤ 0)] at top
    rw [abs_of_nonpos (by linarith : v - n ≤ 0)]
    exact ⟨by linarith, fun _ tie => by linarith⟩
  · have large : 2 ^ (e + 52) ≤ y.size := by
      rcases hv with rfl | rfl
      · exact above
      · have := y.size_nonneg
        have : (0 : ℚ) < 2 ^ (e + 52) := by positivity
        linarith
    obtain ⟨k, hk⟩ := exists_multiple_of_le_size large
    have same : v = k * 2 ^ e ∨ v = (-k : ℤ) * 2 ^ e := by
      rw [hk] at hv
      push_cast
      rwa [neg_mul]
    rcases same with rfl | rfl
    · exact onGrid k
    · exact onGrid (-k)

theorem value_ofInt_zero : (ofInt 0).value = 0 := by
  have magnitude : (ofInt 0).magnitude = 0 := by simp [ofInt, ofRatio?, nearestMagnitude]
  simp [value, size_eq_zero_iff.mpr magnitude]

/-- An integer of 64 bits, with a sign or without, becomes the binary number nearest to it. -/
theorem isNearest_ofInt {z : ℤ} (bound : z.natAbs < 2 ^ 64) : (ofInt z).IsNearest z := by
  by_cases hz : z = 0
  · subst hz
    have zero := isNearest_value (ofInt 0)
    rw [value_ofInt_zero] at zero
    exact_mod_cast zero
  · have nonzero : z.natAbs ≠ 0 := Int.natAbs_ne_zero.mpr hz
    obtain ⟨negative, magnitude⟩ := ofInt_of_ne_zero hz bound
    obtain ⟨normal, small⟩ := roundedSignificand_bounds nonzero
    obtain ⟨size, even⟩ := size_of_magnitude_eq magnitude normal small
    rw [show ((z.natAbs.log2 + 1022 : ℕ) : ℤ) - 1074 = (z.natAbs.log2 : ℤ) - 52 by omega] at size
    have signed : (z : ℚ) = if (ofInt z).negative then -(z.natAbs : ℚ) else z.natAbs := by
      rw [negative, Nat.cast_natAbs]
      rcases lt_or_ge z 0 with below | above
      · simp [below, abs_of_neg]
      · simp [above, abs_of_nonneg]
    rw [signed]
    refine isNearest_of_size fun y v hv => ?_
    rw [size]
    obtain ⟨le, tie⟩ := roundedSignificand_nearest nonzero hv
    exact ⟨le, fun different same => even (tie different same)⟩

end Integers

end Conform.Binary64
