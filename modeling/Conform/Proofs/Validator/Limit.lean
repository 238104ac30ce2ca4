import Conform.Proofs.Validator.Answers
import Mathlib.Data.List.Chain
import Mathlib.Data.Nat.SuccPred
import Mathlib.Order.SuccPred.Archimedean

/-!
What the limit on repeats does to a run. The calls of the run without a limit form paths, and the
largest number of repeats along one of them decides every run with a limit.
-/

namespace Conform

namespace Guard

def after (guard : Guard) (slot : Slot) : Guard :=
  if slot ∈ guard.entered then { guard with repeats := guard.repeats + 1 }
  else { guard with entered := slot :: guard.entered }

variable {guard : Guard} {slot : Slot}

theorem enter_eq_ok (slot : Slot) (h : guard.limit = 0 ∨ (guard.after slot).repeats ≤ guard.limit) :
    guard.enter slot = .ok (guard.after slot) := by
  rw [enter, after]
  split
  · rename_i hmem
    rw [after, if_pos hmem] at h
    simp only at h ⊢
    rw [if_neg (by omega)]
  · rfl

theorem enter_eq_error (limited : guard.limit ≠ 0) (within : guard.repeats ≤ guard.limit)
    (h : guard.limit < (guard.after slot).repeats) :
    guard.enter slot = .error ⟨guard.limit + 1⟩ := by
  rw [after] at h
  rw [enter]
  split at h
  · rename_i hmem
    rw [if_pos hmem]
    simp only at h ⊢
    rw [if_pos (by omega)]
    congr 2
    omega
  · exact absurd h (Nat.not_lt.mpr within)

@[simp] theorem after_limit (guard : Guard) (slot : Slot) :
    (guard.after slot).limit = guard.limit := by
  rw [after]
  split <;> rfl

def limited (limit : Nat) (guard : Guard) : Guard := { guard with limit }

@[simp] theorem after_limited (limit : Nat) (guard : Guard) (slot : Slot) :
    (guard.limited limit).after slot = (guard.after slot).limited limit := by
  by_cases hmem : slot ∈ guard.entered
  · simp [after, limited, hmem]
  · simp [after, limited, hmem]

end Guard

/-- How many of `slots`, entered one after the other, were entered before, when all of `entered`
were. -/
def repeatsAfter (entered : List Slot) : List Slot → Nat
  | [] => 0
  | slot :: rest =>
      if slot ∈ entered then repeatsAfter entered rest + 1
      else repeatsAfter (slot :: entered) rest

theorem repeatsAfter_le_length (entered slots : List Slot) :
    repeatsAfter entered slots ≤ slots.length := by
  induction slots generalizing entered with
  | nil => exact Nat.le_refl 0
  | cons slot rest ih =>
      rw [repeatsAfter, List.length_cons]
      split
      · exact Nat.succ_le_succ (ih entered)
      · exact Nat.le_succ_of_le (ih (slot :: entered))

theorem repeatsAfter_nil_lt_length {slots : List Slot} (h : slots ≠ []) :
    repeatsAfter [] slots < slots.length := by
  cases slots with
  | nil => exact absurd rfl h
  | cons slot rest =>
      rw [repeatsAfter, if_neg List.not_mem_nil, List.length_cons]
      exact Nat.lt_succ_of_le (repeatsAfter_le_length [slot] rest)

theorem Guard.repeats_add_repeatsAfter (guard : Guard) (slot : Slot) (rest : List Slot) :
    guard.repeats + repeatsAfter guard.entered (slot :: rest) =
      (guard.after slot).repeats + repeatsAfter (guard.after slot).entered rest := by
  rw [repeatsAfter, after]
  split
  · simp only
    omega
  · rfl

namespace Call

def entered? (checks : List Check) (call : Call) : Option Slot :=
  match checks[call.slot]?, call.value with
  | some (.object _ _), .object _ => some call.slot
  | _, _ => none

def inner (checks : List Check) (call : Call) : Guard :=
  (call.entered? checks).elim call.guard call.guard.after

def limited (limit : Nat) (call : Call) : Call :=
  { call with guard := call.guard.limited limit }

variable {checks : List Check} {call next : Call}

theorem entered?_eq_some {slot : Slot} (h : call.entered? checks = some slot) :
    slot = call.slot ∧ ∃ name properties entries,
      checks[call.slot]? = some (.object name properties) ∧ call.value = .object entries := by
  rw [entered?] at h
  split at h
  · rename_i name properties entries hcheck hvalue
    exact ⟨(Option.some.inj h).symm, name, properties, entries, hcheck, hvalue⟩
  · cases h

theorem entered?_of_object {name : String} {properties : List PropertyCheck}
    {entries : List (String × Json)} (hcheck : checks[call.slot]? = some (.object name properties))
    (hvalue : call.value = .object entries) : call.entered? checks = some call.slot := by
  rw [entered?, hcheck, hvalue]

theorem inner_of_object {name : String} {properties : List PropertyCheck}
    {entries : List (String × Json)} (hcheck : checks[call.slot]? = some (.object name properties))
    (hvalue : call.value = .object entries) : call.inner checks = call.guard.after call.slot := by
  rw [inner, entered?_of_object hcheck hvalue, Option.elim_some]

theorem MayMake.guard_eq (h : call.MayMake checks next) (unlimited : call.guard.limit = 0) :
    next.guard = call.inner checks := by
  cases h with
  | item hcheck hvalue hitem => simp [item, inner, entered?, hcheck]
  | position hcheck hvalue hlength helement hitem => simp [item, inner, entered?, hcheck]
  | member hcheck _ => simp [member, inner, entered?, hcheck]
  | part hcheck hm => simp [part, inner, entered?, hcheck]
  | field hcheck hvalue henter hproperty hfield =>
      rw [Guard.enter_eq_ok _ (.inl unlimited)] at henter
      rw [inner_of_object hcheck hvalue]
      exact (Except.ok.inj henter).symm

theorem inner_limit (checks : List Check) (call : Call) :
    (call.inner checks).limit = call.guard.limit := by
  rw [inner]
  cases call.entered? checks <;> simp

theorem MayMake.limit_eq_zero (h : call.MayMake checks next) (unlimited : call.guard.limit = 0) :
    next.guard.limit = 0 := by
  rw [h.guard_eq unlimited, inner_limit, unlimited]

theorem MayMake.objectDepth_add_le (h : call.MayMake checks next) :
    next.value.objectDepth + (call.entered? checks).toList.length ≤ call.value.objectDepth := by
  cases h with
  | item hcheck hvalue hitem =>
      rw [hvalue]
      simpa [item, entered?, hcheck] using Json.objectDepth_item_le (List.mem_of_getElem? hitem)
  | position hcheck hvalue hlength helement hitem =>
      rw [hvalue]
      simpa [item, entered?, hcheck] using Json.objectDepth_item_le (List.mem_of_getElem? hitem)
  | member hcheck _ => simp [member, entered?, hcheck]
  | part hcheck hm => simp [part, entered?, hcheck]
  | field hcheck hvalue henter hproperty hfield =>
      rw [entered?_of_object hcheck hvalue, hvalue]
      exact Json.objectDepth_field_lt (Json.mem_of_field? hfield)

end Call

namespace Call

variable {checks : List Check} {call : Call} {limit : Nat}

theorem answer_limited {recur : Call → Except LimitReached (List Mismatch)}
    (unlimited : call.guard.limit = 0) (within : (call.inner checks).repeats ≤ limit) :
    (call.limited limit).answer id checks recur =
      call.answer id checks fun next => recur (next.limited limit) := by
  rw [answer, answer]
  simp only [limited]
  split
  · rfl
  · rfl
  · rfl
  · rfl
  · rfl
  · rfl
  · rfl
  · rfl
  · rename_i name properties hcheck
    split
    · rename_i entries hvalue
      rw [inner_of_object hcheck hvalue] at within
      have free := Guard.enter_eq_ok call.slot (.inl unlimited)
      have bounded : (call.guard.limited limit).enter call.slot =
          .ok ((call.guard.after call.slot).limited limit) := by
        rw [← Guard.after_limited]
        refine Guard.enter_eq_ok _ (.inr ?_)
        rw [Guard.after_limited]
        exact within
      rw [free, bounded]
      rfl
    · rfl

theorem answer_limited_eq_error {recur : Call → Except LimitReached (List Mismatch)}
    (positive : 0 < limit) (below : call.guard.repeats ≤ limit)
    (above : limit < (call.inner checks).repeats) :
    (call.limited limit).answer id checks recur = .error ⟨limit + 1⟩ := by
  cases hentered : call.entered? checks with
  | none =>
      rw [inner, hentered, Option.elim_none] at above
      exact absurd above (Nat.not_lt.mpr below)
  | some slot =>
      obtain ⟨-, name, properties, entries, hcheck, hvalue⟩ := entered?_eq_some hentered
      rw [inner_of_object hcheck hvalue] at above
      have refused : (call.guard.limited limit).enter call.slot = .error ⟨limit + 1⟩ := by
        refine Guard.enter_eq_error positive.ne' below ?_
        rw [Guard.after_limited]
        exact above
      rw [answer]
      simp only [limited, hcheck, hvalue]
      rw [refused]
      rfl

end Call

def objectsEntered (checks : List Check) (calls : List Call) : List Slot :=
  calls.filterMap (Call.entered? checks)

namespace Validator

def Makes (validator : Validator) (call next : Call) : Prop :=
  call.Makes validator.checks (fun tried => validator.run tried ≠ .ok []) next

def repeatsAlong (validator : Validator) (call : Call) (path : List Call) : Nat :=
  call.guard.repeats +
    repeatsAfter call.guard.entered (objectsEntered validator.checks (call :: path))

variable {validator : Validator} {call next : Call} {path : List Call}

theorem repeatsAlong_eq (validator : Validator) (call : Call) (path : List Call) :
    validator.repeatsAlong call path =
      (call.inner validator.checks).repeats +
        repeatsAfter (call.inner validator.checks).entered
          (objectsEntered validator.checks path) := by
  rw [repeatsAlong, objectsEntered, List.filterMap_cons, Call.inner]
  cases call.entered? validator.checks with
  | none => rfl
  | some slot => exact Guard.repeats_add_repeatsAfter _ _ _

theorem repeatsAlong_nil (validator : Validator) (call : Call) :
    validator.repeatsAlong call [] = (call.inner validator.checks).repeats :=
  validator.repeatsAlong_eq call []

theorem repeatsAlong_cons (h : validator.Makes call next) (unlimited : call.guard.limit = 0) :
    validator.repeatsAlong call (next :: path) = validator.repeatsAlong next path := by
  rw [repeatsAlong_eq, ← h.mayMake.guard_eq unlimited, repeatsAlong]

theorem length_objectsEntered_cons (checks : List Check) (call : Call) (path : List Call) :
    (objectsEntered checks (call :: path)).length =
      (objectsEntered checks path).length + (call.entered? checks).toList.length := by
  rw [objectsEntered, List.filterMap_cons]
  cases call.entered? checks <;> rfl

theorem length_objectsEntered_le (chain : List.IsChain validator.Makes (call :: path)) :
    (objectsEntered validator.checks (call :: path)).length ≤ call.value.objectDepth := by
  induction path generalizing call with
  | nil =>
      rw [length_objectsEntered_cons]
      cases hentered : call.entered? validator.checks with
      | none => exact Nat.zero_le _
      | some slot =>
          obtain ⟨-, name, properties, entries, hcheck, hvalue⟩ := Call.entered?_eq_some hentered
          rw [hvalue, Json.objectDepth]
          exact Nat.succ_le_succ (Nat.zero_le _)
  | cons next path ih =>
      obtain ⟨made, rest⟩ := List.isChain_cons_cons.mp chain
      have hnext := ih rest
      have hstep := made.mayMake.objectDepth_add_le
      rw [length_objectsEntered_cons]
      omega

theorem exists_run_eq_ok (validator : Validator) (call : Call) (unlimited : call.guard.limit = 0) :
    ∃ found, validator.run call = .ok found := by
  induction call using validator.call_induction with
  | step call ih =>
      rw [run_eq_answer]
      refine Call.exists_answer_eq_ok (Guard.enter_eq_ok _ (.inl unlimited)) fun next hnext => ?_
      exact ih next hnext (hnext.limit_eq_zero unlimited)

def Exceeds (validator : Validator) (limit : Nat) (call : Call) : Prop :=
  ∃ path, List.IsChain validator.Makes (call :: path) ∧ limit < validator.repeatsAlong call path

theorem exceeds_iff {limit : Nat} (unlimited : call.guard.limit = 0) :
    validator.Exceeds limit call ↔ limit < (call.inner validator.checks).repeats ∨
      ∃ next, validator.Makes call next ∧ validator.Exceeds limit next := by
  constructor
  · rintro ⟨path, chain, above⟩
    cases path with
    | nil =>
        rw [repeatsAlong_nil] at above
        exact .inl above
    | cons next path =>
        obtain ⟨made, rest⟩ := List.isChain_cons_cons.mp chain
        rw [repeatsAlong_cons made unlimited] at above
        exact .inr ⟨next, made, path, rest, above⟩
  · rintro (above | ⟨next, made, path, rest, above⟩)
    · refine ⟨[], List.isChain_singleton _, ?_⟩
      rw [repeatsAlong_nil]
      exact above
    · refine ⟨next :: path, List.isChain_cons_cons.mpr ⟨made, rest⟩, ?_⟩
      rw [repeatsAlong_cons made unlimited]
      exact above

/-- A call under a limit has the answer that it has without, unless some path exceeds the limit;
then the first entry above it ends the call. -/
theorem run_limited (validator : Validator) (call : Call) {limit : Nat} (positive : 0 < limit)
    (unlimited : call.guard.limit = 0) (below : call.guard.repeats ≤ limit) :
    (¬ validator.Exceeds limit call → validator.run (call.limited limit) = validator.run call) ∧
      (validator.Exceeds limit call →
        validator.run (call.limited limit) = .error ⟨limit + 1⟩) := by
  induction call using validator.call_induction with
  | step call ih =>
      rw [run_eq_answer, exceeds_iff unlimited]
      by_cases above : limit < (call.inner validator.checks).repeats
      · -- A repeat is counted one at a time, so the count is now one above the limit.
        refine ⟨fun h => absurd (.inl above) h, fun _ => ?_⟩
        exact Call.answer_limited_eq_error positive below above
      · -- The call itself stays below the limit, so the calls it makes decide.
        rw [Nat.not_lt] at above
        have hmade : ∀ next, call.MayMake validator.checks next →
            next.guard.limit = 0 ∧ next.guard.repeats ≤ limit := by
          intro next hnext
          rw [hnext.guard_eq unlimited]
          exact ⟨(Call.inner_limit _ call).trans unlimited, above⟩
        have belowLimit := fun next hnext => ih next hnext (hmade next hnext).1 (hmade next hnext).2
        rw [Call.answer_limited unlimited above]
        constructor
        · intro within
          rw [validator.run_eq_answer call]
          refine (Call.answer_congr fun next made => ?_).symm
          have hnext : ¬ validator.Exceeds limit next :=
            fun exceeds => within (.inr ⟨next, made, exceeds⟩)
          exact ((belowLimit next made.mayMake).1 hnext).symm
        · intro exceeds
          obtain ⟨next, made, hnext⟩ := exceeds.resolve_left (Nat.not_lt.mpr above)
          refine Call.answer_eq_error ?_ (made.mono ?_) ((belowLimit next made.mayMake).2 hnext)
          · intro other hother
            by_cases hexceeds : validator.Exceeds limit other
            · exact .inl ((belowLimit other hother).2 hexceeds)
            · rw [(belowLimit other hother).1 hexceeds]
              exact .inr (validator.exists_run_eq_ok other (hmade other hother).1)
          · -- Members that were rejected without the limit are not accepted under it.
            intro tried htried hrejected
            by_cases hexceeds : validator.Exceeds limit tried
            · rw [(belowLimit tried htried).2 hexceeds]
              intro heq
              cases heq
            · rw [(belowLimit tried htried).1 hexceeds]
              exact hrejected

theorem validate_zero_of_eq_ok (validator : Validator) {value : Json} {limit : Nat}
    {found : List Mismatch} (answered : validator.validate value limit = .ok found) :
    validator.validate value 0 = .ok found := by
  rcases Nat.eq_zero_or_pos limit with rfl | positive
  · exact answered
  · obtain ⟨within, beyond⟩ :=
      validator.run_limited (.start validator.root value 0) positive rfl (Nat.zero_le limit)
    by_cases exceeds : validator.Exceeds limit (.start validator.root value 0)
    · cases answered.symm.trans (beyond exceeds)
    · exact (within exceeds).symm.trans answered

def repeats (slots : List Slot) : Nat := repeatsAfter [] slots

/-- The numbers of repeats along the paths of calls in a run without a limit. -/
def repeatCounts (validator : Validator) (value : Json) : Set Nat :=
  {n | ∃ path, List.IsChain validator.Makes (.start validator.root value 0 :: path) ∧
    n = repeats (objectsEntered validator.checks (.start validator.root value 0 :: path))}

theorem le_objectDepth_of_mem_repeatCounts {value : Json} {n : Nat}
    (h : n ∈ validator.repeatCounts value) : n ≤ value.objectDepth - 1 := by
  obtain ⟨path, chain, rfl⟩ := h
  have hlength := length_objectsEntered_le chain
  change _ ≤ value.objectDepth at hlength
  by_cases hnone : objectsEntered validator.checks (.start validator.root value 0 :: path) = []
  · rw [hnone]
    exact Nat.zero_le _
  · have hfirst := repeatsAfter_nil_lt_length hnone
    rw [repeats]
    omega

theorem exists_isGreatest_repeatCounts (validator : Validator) (value : Json) :
    ∃ most, IsGreatest (validator.repeatCounts value) most := by
  have bounded : BddAbove (validator.repeatCounts value) :=
    ⟨value.objectDepth - 1, fun _ h => le_objectDepth_of_mem_repeatCounts h⟩
  have inhabited : (validator.repeatCounts value).Nonempty :=
    ⟨_, [], List.isChain_singleton _, rfl⟩
  exact bounded.exists_isGreatest_of_nonempty inhabited

/-- The limit is a threshold. Of the paths of calls in the run without a limit one has the most
repeats of objects. Limits from there on change nothing, every other limit ends the run at the first
entry above it, and there are fewer repeats than levels of objects in the value. -/
theorem validate_threshold (validator : Validator) (value : Json) :
    ∃ most found, IsGreatest (validator.repeatCounts value) most ∧
      validator.validate value 0 = .ok found ∧
      (∀ limit, limit = 0 ∨ most ≤ limit → validator.validate value limit = .ok found) ∧
      (∀ limit, 0 < limit → limit < most →
        validator.validate value limit = .error ⟨limit + 1⟩) ∧
      (0 < value.objectDepth → most < value.objectDepth) ∧
      (value.objectDepth = 0 → most = 0) ∧
      ∀ limit higher list, 0 < limit → limit ≤ higher → validator.validate value limit = .ok list →
        validator.validate value higher = .ok list := by
  obtain ⟨most, greatest⟩ := validator.exists_isGreatest_repeatCounts value
  obtain ⟨found, unlimited⟩ :=
    validator.exists_run_eq_ok (.start validator.root value 0) rfl
  have few := le_objectDepth_of_mem_repeatCounts greatest.1
  have exceeds_iff_lt : ∀ limit,
      validator.Exceeds limit (.start validator.root value 0) ↔ limit < most := by
    have counts : ∀ path, validator.repeatsAlong (.start validator.root value 0) path =
        repeats (objectsEntered validator.checks (.start validator.root value 0 :: path)) :=
      fun path => Nat.zero_add _
    intro limit
    constructor
    · rintro ⟨path, chain, above⟩
      rw [counts] at above
      exact Nat.lt_of_lt_of_le above (greatest.2 ⟨path, chain, rfl⟩)
    · intro above
      obtain ⟨path, chain, hmost⟩ := greatest.1
      refine ⟨path, chain, ?_⟩
      rw [counts, ← hmost]
      exact above
  have limited := fun limit (positive : 0 < limit) =>
    validator.run_limited (.start validator.root value 0) positive rfl (Nat.zero_le limit)
  have above : ∀ limit, limit = 0 ∨ most ≤ limit → validator.validate value limit = .ok found := by
    intro limit h
    rcases Nat.eq_zero_or_pos limit with rfl | positive
    · exact unlimited
    · refine ((limited limit positive).1 ?_).trans unlimited
      rw [exceeds_iff_lt]
      omega
  have below : ∀ limit, 0 < limit → limit < most →
      validator.validate value limit = .error ⟨limit + 1⟩ :=
    fun limit positive h => (limited limit positive).2 ((exceeds_iff_lt limit).mpr h)
  refine ⟨most, found, greatest, unlimited, above, below, by omega, by omega, ?_⟩
  intro limit higher list positive hle hlist
  have reached : most ≤ limit := by
    by_contra hlow
    rw [below limit positive (Nat.lt_of_not_le hlow)] at hlist
    cases hlist
  rw [above limit (.inr reached)] at hlist
  rw [above higher (.inr (Nat.le_trans reached hle))]
  exact hlist

end Validator

end Conform
