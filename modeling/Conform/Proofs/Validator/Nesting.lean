import Conform.Proofs.Validator.Limit
import Mathlib.Data.Finset.Card
import Mathlib.Data.List.Permutation

namespace Conform

def Check.isObject : Check → Bool
  | .object _ _ => true
  | _ => false

theorem repeatsAfter_add_card (entered slots : List Slot) :
    repeatsAfter entered slots + (slots.toFinset \ entered.toFinset).card = slots.length := by
  induction slots generalizing entered with
  | nil => simp [repeatsAfter]
  | cons slot rest ih =>
      rw [repeatsAfter, List.toFinset_cons, List.length_cons]
      by_cases hmem : slot ∈ entered
      · have old := ih entered
        rw [if_pos hmem, Finset.insert_sdiff_of_mem _ (List.mem_toFinset.mpr hmem)]
        omega
      · have new := ih (slot :: entered)
        have first : insert slot rest.toFinset \ entered.toFinset =
            insert slot (rest.toFinset \ (slot :: entered).toFinset) := by
          ext other
          by_cases other = slot <;> simp_all
        rw [if_neg hmem, first, Finset.card_insert_of_notMem (by simp)]
        omega

namespace Call

variable {checks : List Check} {call next : Call} {limit : Nat}

theorem inner_limited (limit : Nat) (call : Call) :
    (call.limited limit).inner checks = (call.inner checks).limited limit := by
  rw [inner, inner, show (call.limited limit).entered? checks = call.entered? checks from rfl]
  cases call.entered? checks with
  | none => rfl
  | some slot => exact Guard.after_limited limit call.guard slot

theorem MayMake.exists_unlimited (unlimited : call.guard.limit = 0)
    (within : (call.inner checks).repeats ≤ limit)
    (h : (call.limited limit).MayMake checks next) :
    ∃ free, next = free.limited limit ∧ call.MayMake checks free := by
  cases h with
  | item hcheck hvalue hitem => exact ⟨_, rfl, .item hcheck hvalue hitem⟩
  | position hcheck hvalue hlength helement hitem =>
      exact ⟨_, rfl, .position hcheck hvalue hlength helement hitem⟩
  | member hcheck hrejected => exact ⟨_, rfl, .member hcheck hrejected⟩
  | part hcheck hm => exact ⟨_, rfl, .part hcheck hm⟩
  | @field name properties entries inner property value hcheck hvalue henter hproperty hfield =>
      have hinner : call.inner checks = call.guard.after call.slot := inner_of_object hcheck hvalue
      have bounded : (call.guard.limited limit).enter call.slot =
          .ok ((call.guard.after call.slot).limited limit) := by
        rw [← Guard.after_limited]
        refine Guard.enter_eq_ok _ (.inr ?_)
        rw [Guard.after_limited, ← hinner]
        exact within
      have free := Guard.enter_eq_ok call.slot (.inl unlimited)
      obtain rfl : inner = (call.guard.after call.slot).limited limit :=
        Except.ok.inj (henter.symm.trans bounded)
      exact ⟨_, rfl, .field hcheck hvalue free hproperty hfield⟩

end Call

namespace Validator

variable {validator : Validator} {call next : Call} {limit : Nat}

theorem run_limited_outcome (positive : 0 < limit) (unlimited : call.guard.limit = 0)
    (below : call.guard.repeats ≤ limit) :
    validator.run (call.limited limit) = .error ⟨limit + 1⟩ ∨
      ∃ found, validator.run (call.limited limit) = .ok found := by
  obtain ⟨within, beyond⟩ := validator.run_limited call positive unlimited below
  by_cases exceeds : validator.Exceeds limit call
  · exact .inl (beyond exceeds)
  · rw [within exceeds]
    exact .inr (validator.exists_run_eq_ok call unlimited)

theorem inner_repeats_le_of_run_limited {found : List Mismatch} (positive : 0 < limit)
    (below : call.guard.repeats ≤ limit)
    (answered : validator.run (call.limited limit) = .ok found) :
    (call.inner validator.checks).repeats ≤ limit := by
  by_contra above
  rw [Nat.not_le] at above
  rw [run_eq_answer, Call.answer_limited_eq_error positive below above] at answered
  cases answered

theorem exists_of_makes_limited {found : List Mismatch} (positive : 0 < limit)
    (unlimited : call.guard.limit = 0) (below : call.guard.repeats ≤ limit)
    (answered : validator.run (call.limited limit) = .ok found)
    (made : validator.Makes (call.limited limit) next) :
    ∃ (free : Call) (found : List Mismatch), next = free.limited limit ∧
      free.guard = call.inner validator.checks ∧ validator.run next = .ok found := by
  have within := inner_repeats_le_of_run_limited positive below answered
  have limited : ∀ other, (call.limited limit).MayMake validator.checks other →
      ∃ free : Call, other = free.limited limit ∧ free.guard = call.inner validator.checks ∧
        (validator.run other = .error ⟨limit + 1⟩ ∨ ∃ found, validator.run other = .ok found) := by
    intro other hother
    obtain ⟨free, rfl, hfree⟩ := hother.exists_unlimited unlimited within
    have hguard := hfree.guard_eq unlimited
    refine ⟨free, rfl, hguard, run_limited_outcome positive ?_ (hguard ▸ within)⟩
    exact hfree.limit_eq_zero unlimited
  obtain ⟨free, hnext, hguard, cut | ⟨list, hlist⟩⟩ := limited next made.mayMake
  · have failed : (call.limited limit).answer id validator.checks validator.run =
        .error ⟨limit + 1⟩ :=
      Call.answer_eq_error (fun other hother => (limited other hother).choose_spec.2.2) made cut
    cases (answered.symm.trans (validator.run_eq_answer _)).trans failed
  · exact ⟨free, list, hnext, hguard, hlist⟩

theorem repeatsAlong_le {path : List Call} {found : List Mismatch} (positive : 0 < limit)
    (unlimited : call.guard.limit = 0) (below : call.guard.repeats ≤ limit)
    (answered : validator.run (call.limited limit) = .ok found)
    (chain : List.IsChain validator.Makes (call.limited limit :: path)) :
    validator.repeatsAlong (call.limited limit) path ≤ limit := by
  have within := inner_repeats_le_of_run_limited positive below answered
  induction path generalizing call found with
  | nil =>
      rw [repeatsAlong_nil, Call.inner_limited]
      exact within
  | cons next path ih =>
      obtain ⟨made, rest⟩ := List.isChain_cons_cons.mp chain
      obtain ⟨free, list, rfl, hguard, hlist⟩ :=
        exists_of_makes_limited positive unlimited below answered made
      have unlimited' : free.guard.limit = 0 := by
        rw [hguard, Call.inner_limit, unlimited]
      have below' : free.guard.repeats ≤ limit := hguard ▸ within
      have same : validator.repeatsAlong (call.limited limit) (free.limited limit :: path) =
          validator.repeatsAlong (free.limited limit) path := by
        rw [repeatsAlong_eq, Call.inner_limited, ← hguard]
        rfl
      rw [same]
      exact ih unlimited' below' hlist rest
        (inner_repeats_le_of_run_limited positive below' hlist)

def objectSlots (validator : Validator) : List Slot :=
  (List.range validator.slotCount).filter fun slot => validator.checks[slot]?.any Check.isObject

theorem objectsEntered_subset (validator : Validator) (calls : List Call) :
    objectsEntered validator.checks calls ⊆ validator.objectSlots := by
  intro slot hslot
  obtain ⟨call, -, hentered⟩ := List.mem_filterMap.mp hslot
  obtain ⟨rfl, name, properties, entries, hcheck, -⟩ := Call.entered?_eq_some hentered
  refine List.mem_filter.mpr ⟨List.mem_range.mpr (List.getElem?_eq_some_iff.mp hcheck).1, ?_⟩
  rw [hcheck]
  rfl

theorem length_objectsEntered_le_add_repeats (validator : Validator) (calls : List Call) :
    (objectsEntered validator.checks calls).length ≤
      validator.objectSlots.length + repeats (objectsEntered validator.checks calls) := by
  have counted := repeatsAfter_add_card [] (objectsEntered validator.checks calls)
  have distinct : (objectsEntered validator.checks calls).toFinset.card ≤
      validator.objectSlots.length :=
    calc (objectsEntered validator.checks calls).toFinset.card
        ≤ validator.objectSlots.toFinset.card :=
          Finset.card_le_card fun slot hslot => List.mem_toFinset.mpr
            (validator.objectsEntered_subset calls (List.mem_toFinset.mp hslot))
      _ ≤ validator.objectSlots.length := List.toFinset_card_le _
  rw [List.toFinset_nil, Finset.sdiff_empty] at counted
  rw [repeats]
  omega

/-- Where a value gets an answer under a limit, no more objects are entered inside each other, along
any path of the run, than the validator has objects and the limit allows repeats. -/
theorem nesting_le (validator : Validator) (value : Json) {limit : Nat} {found : List Mismatch}
    {path : List Call} (positive : 0 < limit)
    (answered : validator.validate value limit = .ok found)
    (chain : List.IsChain validator.Makes (.start validator.root value limit :: path)) :
    (objectsEntered validator.checks (.start validator.root value limit :: path)).length ≤
      validator.objectSlots.length + limit := by
  have kept :
      validator.repeatsAlong ((Call.start validator.root value 0).limited limit) path ≤ limit :=
    repeatsAlong_le positive rfl (Nat.zero_le limit) answered chain
  have counted : validator.repeatsAlong ((Call.start validator.root value 0).limited limit) path =
      repeats (objectsEntered validator.checks (.start validator.root value limit :: path)) :=
    Nat.zero_add _
  have entries := validator.length_objectsEntered_le_add_repeats
    (.start validator.root value limit :: path)
  omega

/-- A box in which knots are tied. A knot that is not tied tightly counts as anything else, once all
that hangs on it has been tried. -/
def knots : Validator where
  checks := [
    .object "Box" [⟨"next", 1, true, "(Knot | any)"⟩],
    .union [2, 3] "Knot, any",
    .object "Knot" [⟨"next", 1, true, "(Knot | any)"⟩, ⟨"tight", 3, false, "any"⟩],
    .valueType .any]
  root := 0
  rootType := "Box"
  ranked := by
    refine ⟨fun slot => if slot = 1 then 1 else 0, fun slot check hcheck m hm => ?_⟩
    match slot, hcheck with
    | 0, rfl => cases hm
    | 1, rfl =>
        rcases List.mem_pair.mp hm with rfl | rfl
        · decide
        · decide
    | 2, rfl => cases hm
    | 3, rfl => cases hm

def looseKnots : Json :=
  .object [("next", .object [("next", .object [("next", .object [])])])]

def throughKnots : List Call :=
  let first := (Call.start knots.root looseKnots 2).field "Box" ⟨[0], 0, 2⟩
    ⟨"next", 1, true, "(Knot | any)"⟩ (.object [("next", .object [("next", .object [])])])
  let second := (first.member 2).field "Knot" ⟨[2, 0], 0, 2⟩
    ⟨"next", 1, true, "(Knot | any)"⟩ (.object [("next", .object [])])
  let third := (second.member 2).field "Knot" ⟨[2, 0], 1, 2⟩
    ⟨"next", 1, true, "(Knot | any)"⟩ (.object [])
  [first, first.member 2, second, second.member 2, third, third.member 2]

theorem nesting_le_knots : 0 < 2 ∧ knots.validate looseKnots 2 = .ok [] ∧
    List.IsChain knots.Makes (.start knots.root looseKnots 2 :: throughKnots) ∧
    (objectsEntered knots.checks (.start knots.root looseKnots 2 :: throughKnots)).length = 4 ∧
    (objectsEntered knots.checks (.start knots.root looseKnots 2 :: throughKnots)).length ≤
      knots.objectSlots.length + 2 := by
  have answered : knots.validate looseKnots 2 = .ok [] := by cbv
  have tries : ∀ call : Call, call.slot = 1 → knots.Makes call (call.member 2) := by
    intro call hslot
    have hcheck : knots.checks[call.slot]? = some (.union ([] ++ 2 :: [3]) "Knot, any") := by
      rw [hslot]
      rfl
    exact .member hcheck (List.forall_mem_nil _)
  have chain : List.IsChain knots.Makes (.start knots.root looseKnots 2 :: throughKnots) := by
    refine .cons_cons (.field rfl rfl rfl List.mem_cons_self rfl) ?_
    refine .cons_cons (tries _ rfl) (.cons_cons (.field rfl rfl rfl List.mem_cons_self rfl) ?_)
    refine .cons_cons (tries _ rfl) (.cons_cons (.field rfl rfl rfl List.mem_cons_self rfl) ?_)
    exact .cons_cons (tries _ rfl) (.singleton _)
  exact ⟨by decide, answered, chain, rfl, knots.nesting_le looseKnots (by decide) answered chain⟩

end Validator

end Conform
