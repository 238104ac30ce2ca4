import Mathlib.Data.List.Forall2

namespace Conform

variable {ε ε' α β γ : Type}

theorem exists_of_bind_eq_ok {result : Except ε α} {next : α → Except ε β} {b : β}
    (h : result >>= next = .ok b) : ∃ a, result = .ok a ∧ next a = .ok b := by
  cases result with
  | error fault => cases h
  | ok a => exact ⟨a, rfl, h⟩

theorem bind_eq_ok {result : Except ε α} {next : α → Except ε β} {a : α} {b : β}
    (h : result = .ok a) (hnext : next a = .ok b) : result >>= next = .ok b := by
  rw [h]
  exact hnext

theorem exists_of_map_eq_ok {result : Except ε α} {f : α → β} {b : β}
    (h : f <$> result = .ok b) : ∃ a, result = .ok a ∧ f a = b := by
  obtain ⟨a, hresult, ha⟩ := exists_of_bind_eq_ok h
  exact ⟨a, hresult, Except.ok.inj ha⟩

theorem map_eq_error_iff {result : Except ε α} {f : α → β} {fault : ε} :
    result.map f = .error fault ↔ result = .error fault := by
  cases result <;> simp [Except.map]

theorem mapError_eq_ok_iff {result : Except ε α} {f : ε → ε'} {a : α} :
    result.mapError f = .ok a ↔ result = .ok a := by
  cases result <;> simp [Except.mapError]

section Folds

variable {step : β → α → Except ε β} {init result : β} {xs : List α}

theorem foldlM_mapError (f : ε → ε') (step : β → α → Except ε β) (init : β) (xs : List α) :
    (xs.foldlM step init).mapError f = xs.foldlM (fun b a => (step b a).mapError f) init := by
  induction xs generalizing init with
  | nil => rfl
  | cons first rest ih =>
      rw [List.foldlM_cons, List.foldlM_cons]
      cases step init first with
      | error fault => rfl
      | ok next => exact ih next

theorem exists_of_foldlM_eq_error {fault : ε} (h : xs.foldlM step init = .error fault) :
    ∃ x ∈ xs, ∃ before, step before x = .error fault := by
  induction xs generalizing init with
  | nil => cases h
  | cons first rest ih =>
      rw [List.foldlM_cons] at h
      cases hfirst : step init first with
      | error e =>
          rw [hfirst] at h
          exact ⟨first, List.mem_cons_self, init, hfirst.trans h⟩
      | ok next =>
          rw [hfirst] at h
          obtain ⟨x, hx, before, herror⟩ := ih h
          exact ⟨x, List.mem_cons_of_mem _ hx, before, herror⟩

theorem foldlM_induction {motive : β → Prop} (h : xs.foldlM step init = .ok result)
    (first : motive init)
    (kept : ∀ b x b', x ∈ xs → step b x = .ok b' → motive b → motive b') : motive result := by
  induction xs generalizing init with
  | nil =>
      cases h
      exact first
  | cons x rest ih =>
      rw [List.foldlM_cons] at h
      obtain ⟨next, hnext, hrest⟩ := exists_of_bind_eq_ok h
      apply ih hrest (kept init x next List.mem_cons_self hnext first)
      exact fun b y b' hy => kept b y b' (List.mem_cons_of_mem _ hy)

theorem foldlM_append {step : γ × List α → α → Except ε (γ × List α)} {c : γ}
    (passes : ∀ x ∈ xs, ∀ done, step (c, done) x = .ok (c, done ++ [x])) (done : List α) :
    xs.foldlM step (c, done) = .ok (c, done ++ xs) := by
  induction xs generalizing done with
  | nil => exact congrArg (fun done => Except.ok (c, done)) (List.append_nil done).symm
  | cons first rest ih =>
      obtain ⟨hfirst, hrest⟩ := List.forall_mem_cons.mp passes
      rw [List.foldlM_cons, List.append_cons]
      exact bind_eq_ok (hfirst done) (ih hrest (done ++ [first]))

end Folds

theorem mapM_eq_ok_iff {f : α → Except ε β} {xs : List α} {ys : List β} :
    xs.mapM f = .ok ys ↔ List.Forall₂ (fun x y => f x = .ok y) xs ys := by
  induction xs generalizing ys with
  | nil => simp [pure, Except.pure, eq_comm]
  | cons first rest ih =>
      rw [List.mapM_cons, List.forall₂_cons_left_iff]
      simp only [← ih]
      constructor
      · intro h
        obtain ⟨y, hy, others⟩ := exists_of_bind_eq_ok h
        obtain ⟨more, hmore, hys⟩ := exists_of_bind_eq_ok others
        exact ⟨y, more, hy, hmore, (Except.ok.inj hys).symm⟩
      · rintro ⟨y, more, hy, hmore, rfl⟩
        rw [hy, hmore]
        rfl

end Conform
