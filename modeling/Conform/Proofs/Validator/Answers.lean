import Conform.Proofs.Outcome
import Conform.Proofs.Validator.Calls

namespace Conform

section Results

variable {ε ε' α γ : Type} {fault : ε}

theorem anyEmpty_congr {f g : γ → Except ε (List α)} {members : List γ}
    (agree : ∀ tried m rest, members = tried ++ m :: rest → (∀ t ∈ tried, f t ≠ .ok []) →
      f m = g m) :
    anyEmpty (members.map f) = anyEmpty (members.map g) := by
  induction members with
  | nil => rfl
  | cons m rest ih =>
      rw [List.map_cons, List.map_cons, anyEmpty, anyEmpty, ← agree [] m rest rfl (by simp)]
      cases hfirst : f m with
      | error e => rfl
      | ok found =>
          cases found with
          | nil => rfl
          | cons mismatch found =>
              refine ih fun tried m' rest' hrest hrejected => ?_
              refine agree (m :: tried) m' rest' (by rw [hrest]; rfl) ?_
              intro t ht
              rcases List.mem_cons.mp ht with rfl | ht
              · simp [hfirst]
              · exact hrejected t ht

theorem gather_mapError (f : ε → ε') (results : List (Except ε (List α))) :
    (gather results).mapError f = gather (results.map (·.mapError f)) := by
  induction results with
  | nil => rfl
  | cons first rest ih =>
      rw [List.map_cons, gather, gather, ← ih]
      cases first with
      | error e => rfl
      | ok found => cases gather rest <;> rfl

theorem anyEmpty_mapError (f : ε → ε') (results : List (Except ε (List α))) :
    (anyEmpty results).mapError f = anyEmpty (results.map (·.mapError f)) := by
  induction results with
  | nil => rfl
  | cons first rest ih =>
      rw [List.map_cons, anyEmpty, anyEmpty, ← ih]
      cases first with
      | error e => rfl
      | ok found => cases found <;> rfl

theorem gather_eq_error {results : List (Except ε (List α))}
    (outcome : ∀ result ∈ results, result = .error fault ∨ ∃ found, result = .ok found)
    (failing : .error fault ∈ results) : gather results = .error fault := by
  induction results with
  | nil => cases failing
  | cons first rest ih =>
      rw [gather]
      rcases outcome first List.mem_cons_self with hfirst | ⟨found, hfirst⟩
      · rw [hfirst]
        rfl
      · rcases List.mem_cons.mp failing with hnow | hlater
        · rw [hfirst] at hnow
          cases hnow
        · have hrest := ih (fun result h => outcome result (List.mem_cons_of_mem _ h)) hlater
          rw [hfirst, hrest]
          rfl

theorem exists_gather_eq_ok {results : List (Except ε (List α))}
    (outcome : ∀ result ∈ results, ∃ found, result = .ok found) :
    ∃ found, gather results = .ok found := by
  induction results with
  | nil => exact ⟨[], rfl⟩
  | cons first rest ih =>
      obtain ⟨found, hfirst⟩ := outcome first List.mem_cons_self
      obtain ⟨more, hrest⟩ := ih fun result h => outcome result (List.mem_cons_of_mem _ h)
      rw [gather, hfirst, hrest]
      exact ⟨found ++ more, rfl⟩

theorem anyEmpty_eq_error {tried rest : List (Except ε (List α))}
    (outcome : ∀ result ∈ tried, result = .error fault ∨
      ∃ first found, result = .ok (first :: found)) :
    anyEmpty (tried ++ .error fault :: rest) = .error fault := by
  induction tried with
  | nil => rfl
  | cons first tried ih =>
      rw [List.cons_append, anyEmpty]
      rcases outcome first List.mem_cons_self with hfirst | ⟨mismatch, found, hfirst⟩
      · rw [hfirst]
        rfl
      · rw [hfirst]
        exact ih fun result h => outcome result (List.mem_cons_of_mem _ h)

theorem exists_anyEmpty_eq_ok {results : List (Except ε (List α))}
    (outcome : ∀ result ∈ results, ∃ found, result = .ok found) :
    ∃ accepted, anyEmpty results = .ok accepted := by
  induction results with
  | nil => exact ⟨false, rfl⟩
  | cons first rest ih =>
      obtain ⟨found, hfirst⟩ := outcome first List.mem_cons_self
      rw [anyEmpty, hfirst]
      cases found with
      | nil => exact ⟨true, rfl⟩
      | cons mismatch found =>
          exact ih fun result h => outcome result (List.mem_cons_of_mem _ h)

end Results

namespace Call

variable {ε ε' : Type} {abort : LimitReached → ε} {checks : List Check} {call next : Call}
  {recur other : Call → Except ε (List Mismatch)} {fault : ε}

theorem answer_congr
    (agree : ∀ next, call.Makes checks (fun tried => recur tried ≠ .ok []) next →
      recur next = other next) :
    call.answer abort checks recur = call.answer abort checks other := by
  rw [answer, answer]
  split
  · rfl
  · rfl
  · rfl
  · rfl
  · rename_i element hcheck
    split
    · rename_i items hvalue
      refine congrArg gather (List.map_congr_left fun entry hentry => agree _ ?_)
      exact .item hcheck hvalue (List.mem_zipIdx_iff_getElem?.mp hentry)
    · rfl
  · rename_i elements rendered hcheck
    split
    · rename_i items hvalue
      split
      · rename_i hlength
        refine congrArg gather (List.map_congr_left fun entry hentry => agree _ ?_)
        have hpair := List.mem_zipIdx_iff_getElem?.mp hentry
        obtain ⟨helement, hitem⟩ := List.getElem?_zip_eq_some.mp hpair
        exact .position hcheck hvalue hlength helement hitem
      · rfl
    · rfl
  · rename_i members possibilities hcheck
    have same : anyEmpty (members.map fun m => recur (call.member m)) =
        anyEmpty (members.map fun m => other (call.member m)) := by
      refine anyEmpty_congr fun tried m rest hmembers hrejected => agree _ ?_
      rw [hmembers] at hcheck
      exact .member hcheck hrejected
    rw [same]
  · rename_i members declared hcheck
    refine congrArg gather (List.map_congr_left fun m hm => agree _ ?_)
    exact .part hcheck hm
  · rename_i name properties hcheck
    split
    · rename_i entries hvalue
      cases henter : call.guard.enter call.slot with
      | error reached => rfl
      | ok inner =>
          have same : properties.map (call.ofProperty recur name inner entries) =
              properties.map (call.ofProperty other name inner entries) := by
            refine List.map_congr_left fun property hproperty => ?_
            rw [ofProperty, ofProperty]
            cases hfield : Json.field? entries property.key with
            | none => rfl
            | some value => exact agree _ (.field hcheck hvalue henter hproperty hfield)
          change gather _ >>= _ = gather _ >>= _
          rw [same]
    · rfl

theorem answer_mapError (f : ε → ε') (abort : LimitReached → ε) (checks : List Check)
    (recur : Call → Except ε (List Mismatch)) (call : Call) :
    (call.answer abort checks recur).mapError f =
      call.answer (f ∘ abort) checks fun next => (recur next).mapError f := by
  rw [answer, answer]
  split
  · rfl
  · split <;> rfl
  · split <;> rfl
  · split <;> rfl
  · split
    · rw [gather_mapError, List.map_map]
      rfl
    · rfl
  · split
    · split
      · rw [gather_mapError, List.map_map]
        rfl
      · rfl
    · rfl
  · rename_i members possibilities hcheck
    have mapped : members.map (fun m => (recur (call.member m)).mapError f) =
        (members.map fun m => recur (call.member m)).map (·.mapError f) := by
      rw [List.map_map]
      rfl
    rw [mapped, ← anyEmpty_mapError]
    cases anyEmpty (members.map fun m => recur (call.member m)) with
    | error e => rfl
    | ok accepted => cases accepted <;> rfl
  · rw [gather_mapError, List.map_map]
    rfl
  · split
    · rename_i name properties hcheck _ entries hvalue
      cases call.guard.enter call.slot with
      | error reached => rfl
      | ok inner =>
          have mapped :
              properties.map (call.ofProperty (fun next => (recur next).mapError f) name inner
                entries) =
              (properties.map (call.ofProperty recur name inner entries)).map (·.mapError f) := by
            rw [List.map_map]
            refine List.map_congr_left fun property _ => ?_
            rw [Function.comp_apply, ofProperty, ofProperty]
            cases Json.field? entries property.key <;> rfl
          change Except.mapError f (gather _ >>= _) = gather _ >>= _
          rw [mapped, ← gather_mapError]
          cases gather (properties.map (call.ofProperty recur name inner entries)) <;> rfl
    · rfl

theorem answer_eq_error
    (outcome : ∀ other, call.MayMake checks other →
      recur other = .error fault ∨ ∃ found, recur other = .ok found)
    (made : call.Makes checks (fun tried => recur tried ≠ .ok []) next)
    (failing : recur next = .error fault) : call.answer abort checks recur = .error fault := by
  cases made with
  | @item element items i item hcheck hvalue hitem =>
      have hentry : (item, i) ∈ items.zipIdx := List.mem_zipIdx_iff_getElem?.mpr hitem
      rw [answer, hcheck, hvalue]
      apply gather_eq_error
      · exact List.forall_mem_map.mpr fun entry h => outcome _ (mayMake_item hcheck hvalue h)
      · exact List.mem_map.mpr ⟨(item, i), hentry, failing⟩
  | @position elements rendered items i element item hcheck hvalue hlength helement hitem =>
      have hentry : ((element, item), i) ∈ (elements.zip items).zipIdx :=
        List.mem_zipIdx_iff_getElem?.mpr (List.getElem?_zip_eq_some.mpr ⟨helement, hitem⟩)
      rw [answer, hcheck, hvalue]
      simp only [hlength, ↓reduceIte]
      apply gather_eq_error
      · exact List.forall_mem_map.mpr fun entry h =>
          outcome _ (mayMake_position hcheck hvalue hlength h)
      · exact List.mem_map.mpr ⟨((element, item), i), hentry, failing⟩
  | @member tried rest m possibilities hcheck hrejected =>
      rw [answer, hcheck]
      simp only [List.map_append, List.map_cons, failing]
      rw [anyEmpty_eq_error]
      · rfl
      · refine List.forall_mem_map.mpr fun t ht => ?_
        have hrejected := hrejected t ht
        rcases outcome _ (mayMake_member hcheck (List.mem_append_left _ ht)) with
          hfault | ⟨found, hfound⟩
        · exact .inl hfault
        · cases found with
          | nil => exact absurd hfound hrejected
          | cons first found => exact .inr ⟨first, found, hfound⟩
  | @part members declared m hcheck hm =>
      rw [answer, hcheck]
      apply gather_eq_error
      · exact List.forall_mem_map.mpr fun m hm => outcome _ (.part hcheck hm)
      · exact List.mem_map.mpr ⟨m, hm, failing⟩
  | @field name properties entries inner property value hcheck hvalue henter hproperty hfield =>
      have failed : gather (properties.map (call.ofProperty recur name inner entries)) =
          .error fault := by
        apply gather_eq_error
        · refine List.forall_mem_map.mpr fun other hother => ?_
          rw [ofProperty]
          cases hentry : Json.field? entries other.key with
          | none => exact .inr ⟨_, rfl⟩
          | some value => exact outcome _ (.field hcheck hvalue henter hother hentry)
        · refine List.mem_map.mpr ⟨property, hproperty, ?_⟩
          rw [ofProperty, hfield]
          exact failing
      rw [answer, hcheck, hvalue]
      simp only [henter]
      change gather _ >>= _ = _
      rw [failed]
      rfl

theorem exists_answer_eq_ok {inner : Guard} (henter : call.guard.enter call.slot = .ok inner)
    (outcome : ∀ other, call.MayMake checks other → ∃ found, recur other = .ok found) :
    ∃ found, call.answer abort checks recur = .ok found := by
  rw [answer]
  split
  · exact ⟨_, rfl⟩
  · split <;> exact ⟨_, rfl⟩
  · split <;> exact ⟨_, rfl⟩
  · split <;> exact ⟨_, rfl⟩
  · rename_i element hcheck
    split
    · rename_i items hvalue
      apply exists_gather_eq_ok
      exact List.forall_mem_map.mpr fun entry h => outcome _ (mayMake_item hcheck hvalue h)
    · exact ⟨_, rfl⟩
  · rename_i elements rendered hcheck
    split
    · rename_i items hvalue
      split
      · rename_i hlength
        apply exists_gather_eq_ok
        exact List.forall_mem_map.mpr fun entry h =>
          outcome _ (mayMake_position hcheck hvalue hlength h)
      · exact ⟨_, rfl⟩
    · exact ⟨_, rfl⟩
  · rename_i members possibilities hcheck
    obtain ⟨accepted, haccepted⟩ :
        ∃ accepted, anyEmpty (members.map fun m => recur (call.member m)) = .ok accepted := by
      apply exists_anyEmpty_eq_ok
      exact List.forall_mem_map.mpr fun m hm => outcome _ (mayMake_member hcheck hm)
    rw [haccepted]
    cases accepted <;> exact ⟨_, rfl⟩
  · rename_i members declared hcheck
    apply exists_gather_eq_ok
    exact List.forall_mem_map.mpr fun m hm => outcome _ (.part hcheck hm)
  · rename_i name properties hcheck
    split
    · rename_i entries hvalue
      obtain ⟨found, hfound⟩ :
          ∃ found, gather (properties.map (call.ofProperty recur name inner entries)) =
            .ok found := by
        apply exists_gather_eq_ok
        refine List.forall_mem_map.mpr fun property hproperty => ?_
        rw [ofProperty]
        cases hfield : Json.field? entries property.key with
        | none => exact ⟨_, rfl⟩
        | some value => exact outcome _ (.field hcheck hvalue henter hproperty hfield)
      rw [henter]
      change ∃ answer, gather _ >>= _ = _
      rw [hfound]
      exact ⟨_, rfl⟩
    · exact ⟨_, rfl⟩

end Call
end Conform
