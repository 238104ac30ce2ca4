import Conform.Proofs.Numeric.Rounding
import Conform.Schema.Basic

/-!
When a scalar equals a value. Integers are equal if they are the same, however large they are. If
one side is a binary number, what counts is the binary number that the other becomes.
-/

namespace Conform

namespace Number

variable {a b : Number} {m n : Int} {hm : InIntegerRange m} {hn : InIntegerRange n}

def value : Number → ℚ
  | .int n _ => n
  | .float x => x.value

theorem isNearest_toBinary64 (a : Number) : a.toBinary64.IsNearest a.value := by
  cases a with
  | int n inRange => exact Binary64.isNearest_ofInt (by omega)
  | float x => exact x.isNearest_value

/-- Two integers are equal if they are one, and otherwise the binary numbers have to be. -/
inductive Equals : Number → Number → Prop
  | integer (n : Int) (inRange : InIntegerRange n) : Equals (.int n inRange) (.int n inRange)
  | binary {a b : Number} (float : a.isFloat ∨ b.isFloat)
      (same : a.toBinary64.value = b.toBinary64.value) : Equals a b

theorem equals_int_iff : (int m hm).Equals (int n hn) ↔ m = n := by
  constructor
  · rintro (_ | ⟨float, _⟩)
    · rfl
    · simp [isFloat] at float
  · rintro rfl
    exact .integer m hm

theorem equals_iff_of_isFloat (float : a.isFloat ∨ b.isFloat) :
    a.Equals b ↔ a.toBinary64.value = b.toBinary64.value := by
  constructor
  · rintro (_ | ⟨_, same⟩)
    · rfl
    · exact same
  · exact .binary float

theorem equals_self (a : Number) : a.Equals a := by
  cases a with
  | int n inRange => exact .integer n inRange
  | float x => exact .binary (.inl rfl) rfl

theorem Equals.symm (h : a.Equals b) : b.Equals a := by
  cases h with
  | integer n inRange => exact .integer n inRange
  | binary float same => exact .binary float.symm same.symm

/-! Three ways to compare numbers. Each is for some pairs of numbers only. -/

def compareSigned? (a b : Number) : Option Bool := do
  return (← a.signed?) == (← b.signed?)

def compareUnsigned? (a b : Number) : Option Bool := do
  return (← a.unsigned?) == (← b.unsigned?)

def compareBinary? (a b : Number) : Option Bool :=
  if a.isFloat || b.isFloat then some (a.toBinary64.numericEq b.toBinary64) else none

def comparisons : List (Number → Number → Option Bool) :=
  [compareSigned?, compareUnsigned?, compareBinary?]

def firstAnswer (tried : List (Number → Number → Option Bool)) (a b : Number) : Bool :=
  (tried.findSome? fun compare => compare a b).getD false

theorem agrees_eq_firstAnswer (a b : Number) : a.agrees b = firstAnswer comparisons a b := by
  rw [agrees, firstAnswer, comparisons]
  simp only [List.findSome?_cons, compareSigned?, compareUnsigned?, compareBinary?]
  cases a.signed? <;> cases b.signed? <;> cases a.unsigned? <;> cases b.unsigned? <;>
    cases a.isFloat || b.isFloat <;> simp

theorem exists_int_of_signed? {k : Int} (h : a.signed? = some k) : ∃ hk, a = .int k hk := by
  cases a with
  | float x => cases h
  | int m hm =>
      rw [signed?] at h
      split at h
      · cases h
        exact ⟨hm, rfl⟩
      · cases h

theorem exists_int_of_unsigned? {k : Nat} (h : a.unsigned? = some k) : ∃ hk, a = .int k hk := by
  cases a with
  | float x => cases h
  | int m hm =>
      rw [unsigned?] at h
      split at h
      · rename_i natural
        obtain rfl : m = k := by
          rw [← Option.some.inj h, Int.toNat_of_nonneg natural]
        exact ⟨hm, rfl⟩
      · cases h

/-- Every answer is right, so it makes no difference which comparison gives it. -/
theorem equals_iff_of_answer {compare : Number → Number → Option Bool} {answer : Bool}
    (known : compare ∈ comparisons) (h : compare a b = some answer) :
    answer = true ↔ a.Equals b := by
  simp only [comparisons, List.mem_cons, List.not_mem_nil, or_false] at known
  rcases known with rfl | rfl | rfl
  · obtain ⟨m, hm, others⟩ := Option.bind_eq_some_iff.mp h
    obtain ⟨n, hn, hanswer⟩ := Option.bind_eq_some_iff.mp others
    obtain ⟨_, rfl⟩ := exists_int_of_signed? hm
    obtain ⟨_, rfl⟩ := exists_int_of_signed? hn
    rw [equals_int_iff, ← Option.some.inj hanswer, beq_iff_eq]
  · obtain ⟨m, hm, others⟩ := Option.bind_eq_some_iff.mp h
    obtain ⟨n, hn, hanswer⟩ := Option.bind_eq_some_iff.mp others
    obtain ⟨_, rfl⟩ := exists_int_of_unsigned? hm
    obtain ⟨_, rfl⟩ := exists_int_of_unsigned? hn
    rw [equals_int_iff, ← Option.some.inj hanswer, beq_iff_eq, Int.natCast_inj]
  · rw [compareBinary?] at h
    split at h
    · rename_i float
      rw [equals_iff_of_isFloat (by simpa using float), ← Option.some.inj h,
        Binary64.numericEq_iff]
    · cases h

theorem not_equals_of_no_answer (h : ∀ compare ∈ comparisons, compare a b = none) :
    ¬ a.Equals b := by
  simp only [comparisons, List.forall_mem_cons, List.not_mem_nil, false_imp_iff, implies_true,
    and_true] at h
  obtain ⟨signed, unsigned, binary⟩ := h
  have integers : ¬ (a.isFloat ∨ b.isFloat) := by
    simpa [compareBinary?] using binary
  rintro (⟨n, inRange⟩ | ⟨float, -⟩)
  · by_cases small : n < 0x8000000000000000
    · simp [compareSigned?, signed?, small] at signed
    · simp [compareUnsigned?, unsigned?, show 0 ≤ n by omega] at unsigned
  · exact integers float

/-- In which order the comparisons are tried makes no difference. -/
theorem firstAnswer_iff {tried : List (Number → Number → Option Bool)}
    (all : tried.Perm comparisons) : firstAnswer tried a b = true ↔ a.Equals b := by
  rw [firstAnswer]
  cases hfirst : tried.findSome? fun compare => compare a b with
  | none =>
      rw [List.findSome?_eq_none_iff] at hfirst
      have unequal : ¬ a.Equals b :=
        not_equals_of_no_answer fun compare known => hfirst compare (all.mem_iff.mpr known)
      simp [unequal]
  | some answer =>
      obtain ⟨compare, tried, hanswer⟩ := List.exists_of_findSome?_eq_some hfirst
      exact equals_iff_of_answer (all.mem_iff.mp tried) hanswer

theorem agrees_iff : a.agrees b = true ↔ a.Equals b := by
  rw [agrees_eq_firstAnswer, firstAnswer_iff (List.Perm.refl _)]

end Number

namespace Scalar

inductive Equals : Scalar → Json → Prop
  | string (s : String) : Equals (.string s) (.string s)
  | number {a b : Number} (equal : a.Equals b) : Equals (.number a) (.number b)

theorem admits_iff {scalar : Scalar} {value : Json} :
    scalar.admits value = true ↔ scalar.Equals value := by
  constructor
  · intro h
    cases scalar with
    | string s =>
        cases value with
        | string t =>
            obtain rfl := beq_iff_eq.mp h
            exact .string s
        | _ => cases h
    | number a =>
        cases value with
        | number b => exact .number (Number.agrees_iff.mp h)
        | _ => cases h
  · rintro (s | equal)
    · exact beq_iff_eq.mpr rfl
    · exact Number.agrees_iff.mpr equal

/-- A scalar admits a value if both are the same string or equal numbers: the same integer, however
large, or numbers of which one is binary and that become binary numbers for the same rational
number. A number becomes the binary number nearest to it. Comparing is reflexive and symmetric, and
the order in which the comparisons are tried makes no difference. -/
theorem admission_exact :
    (∀ (scalar : Scalar) (value : Json), scalar.admits value = true ↔ scalar.Equals value) ∧
    (∀ m n hm hn, (Scalar.number (.int m hm)).admits (.number (.int n hn)) = true ↔ m = n) ∧
    (∀ a b : Number, a.isFloat ∨ b.isFloat →
      ((Scalar.number a).admits (.number b) = true ↔
        a.toBinary64.value = b.toBinary64.value)) ∧
    (∀ a : Number, a.toBinary64.IsNearest a.value) ∧
    (∀ a : Number, a.agrees a = true) ∧
    (∀ a b : Number, a.agrees b = b.agrees a) ∧
    ∀ tried : List (Number → Number → Option Bool), tried.Perm Number.comparisons →
      ∀ a b : Number, Number.firstAnswer tried a b = a.agrees b := by
  refine ⟨fun _ _ => admits_iff, fun m n hm hn => ?_, fun a b float => ?_,
    Number.isNearest_toBinary64, fun a => ?_, fun a b => ?_, fun tried all a b => ?_⟩
  · exact Number.agrees_iff.trans Number.equals_int_iff
  · exact Number.agrees_iff.trans (Number.equals_iff_of_isFloat float)
  · exact Number.agrees_iff.mpr a.equals_self
  · rw [Bool.eq_iff_iff, Number.agrees_iff, Number.agrees_iff]
    exact ⟨Number.Equals.symm, Number.Equals.symm⟩
  · rw [Bool.eq_iff_iff, Number.firstAnswer_iff all, Number.agrees_iff]

end Scalar
end Conform
