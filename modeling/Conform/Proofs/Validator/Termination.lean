import Conform.Proofs.Validator.Answers
import Conform.Proofs.Validator.Compilation

/-!
Checking a value comes to an end. The recursion is taken here on checks alone, with a bound on how
deep its calls go; on the checks of a validator a bound that depends on the value suffices.
-/

namespace Conform

/-- The recursion on checks alone, which nothing keeps from going on for ever. Calls are at most
`depth` deep inside one another; where that does not suffice the answer is the error `none`. -/
def within (checks : List Check) : Nat → Call → Except (Option LimitReached) (List Mismatch)
  | 0, _ => .error none
  | depth + 1, call => call.answer some checks (within checks depth)

theorem within_of_own_member {checks : List Check} {slot : Slot} {rest : List Slot}
    {possibilities : String} (hcheck : checks[slot]? = some (.union (slot :: rest) possibilities))
    (depth : Nat) (call : Call) (hslot : call.slot = slot) :
    within checks depth call = .error none := by
  induction depth generalizing call with
  | zero => rfl
  | succ depth ih =>
      have again : within checks depth (call.member slot) = .error none := ih _ rfl
      rw [within, Call.answer, hslot, hcheck]
      simp only [List.map_cons, anyEmpty, again]
      rfl

namespace Validator

variable {validator : Validator} {rank : Slot → Nat} {top : Nat}

/-- How deep a call can go, when members lie lower in `rank` and no rank is above `top`. -/
def callDepth (rank : Slot → Nat) (top : Nat) (call : Call) : Nat :=
  call.value.depth * (top + 1) + rank call.slot

theorem callDepth_lt (bounded : ∀ slot, rank slot ≤ top) {call next : Call}
    (h : next.value.IsPart call.value ∨ next.value = call.value ∧ rank next.slot < rank call.slot) :
    callDepth rank top next < callDepth rank top call := by
  rw [callDepth, callDepth]
  rcases h with hpart | ⟨hvalue, hlower⟩
  · have one_level : (next.value.depth + 1) * (top + 1) ≤ call.value.depth * (top + 1) :=
      Nat.mul_le_mul_right _ hpart.depth_lt
    have := bounded next.slot
    rw [Nat.add_mul] at one_level
    omega
  · rw [hvalue]
    omega

theorem within_eq_run (bounded : ∀ slot, rank slot ≤ top)
    (descends : ∀ call next, Call.MayMake validator.checks call next →
      next.value.IsPart call.value ∨ next.value = call.value ∧ rank next.slot < rank call.slot)
    {depth : Nat} {call : Call} (deep : callDepth rank top call < depth) :
    within validator.checks depth call = (validator.run call).mapError some := by
  induction depth generalizing call with
  | zero => exact absurd deep (Nat.not_lt_zero _)
  | succ depth ih =>
      rw [within, run_eq_answer, Call.answer_mapError]
      refine Call.answer_congr fun next hnext => ih ?_
      have := callDepth_lt bounded (descends call next hnext.mayMake)
      omega

end Validator

namespace Schema

/-- The order in which the search for cycles leaves the slots ranks every call that keeps the value
above the one it makes; all other calls go on to a part of the value. So the calls come to an end,
and the recursion on the checks alone gives the answer of `validate` for every limit. -/
theorem recursion_terminates {schema : Schema} {validator : Validator}
    (compiled : schema.compile = .ok validator) :
    ∃ done, schema.images.searchCycles = .ok done ∧
      (∀ call next, Call.MayMake validator.checks call next →
        next.value.IsPart call.value ∨
          next.value = call.value ∧
            (∃ check, validator.checks[call.slot]? = some check ∧ next.slot ∈ check.combined) ∧
            rankIn done next.slot < rankIn done call.slot) ∧
      (WellFounded fun next call => Call.MayMake validator.checks call next) ∧
      ∀ value limit,
        within validator.checks ((value.depth + 1) * (done.length + 1))
            (.start validator.root value limit) =
          (validator.validate value limit).mapError some := by
  obtain ⟨-, done, hsearch, hchecks, -⟩ := holds_images_of_compile compiled
  have descends : ∀ call next, Call.MayMake validator.checks call next →
      next.value.IsPart call.value ∨
        next.value = call.value ∧
          (∃ check, validator.checks[call.slot]? = some check ∧ next.slot ∈ check.combined) ∧
          rankIn done next.slot < rankIn done call.slot := by
    intro call next hnext
    rcases hnext.descends with hpart | ⟨hvalue, check, hcheck, hm⟩
    · exact .inl hpart
    · refine .inr ⟨hvalue, ⟨check, hcheck, hm⟩, ?_⟩
      rw [hchecks] at hcheck
      exact Arena.ranked hsearch call.slot check hcheck next.slot hm
  refine ⟨done, hsearch, descends, ?_, fun value limit => ?_⟩
  -- Accessibility of a call is what the induction over calls proves with the trivial step.
  · exact ⟨validator.call_induction fun call below => Acc.intro call below⟩
  · rw [Validator.validate_eq_run]
    refine Validator.within_eq_run (rankIn_le_length done) (fun call next hnext => ?_) ?_
    · exact (descends call next hnext).imp_right fun h => ⟨h.1, h.2.2⟩
    · have := rankIn_le_length done validator.root
      rw [Validator.callDepth, Nat.add_mul]
      change value.depth * (done.length + 1) + rankIn done validator.root < _
      omega

theorem recursion_terminates_namedLinks : ∃ validator, namedLinks.compile = .ok validator ∧
    WellFounded fun next call => Call.MayMake validator.checks call next := by
  obtain ⟨validator, compiled⟩ := namedLinks_compiles
  obtain ⟨done, -, -, wellFounded, -⟩ := recursion_terminates compiled
  exact ⟨validator, compiled, wellFounded⟩

end Schema
end Conform
