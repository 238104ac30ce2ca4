import Conform.Decoding.Fields
import Conform.Proofs.Outcome
import Conform.Proofs.Pointwise

namespace Conform.Decoding

variable {α β : Type} {a : RecordField α} {b : RecordField β} {x : α} {y : β}

namespace RecordField

/-- What a field can turn out to be: something that is read for it, or what it is if left out. -/
def Yields (field : RecordField α) (x : α) : Prop :=
  (∃ value, field.read value = .ok x) ∨ field.absent = some x

theorem Yields.exists_read (h : a.Yields x) (required : a.absent = none) :
    ∃ value, a.read value = .ok x :=
  h.resolve_right (by simp [required])

theorem finish_eq_ok_iff {found : Option α} :
    a.finish found = .ok x ↔ found.or a.absent = some x := by
  rw [finish]
  cases found.or a.absent <;> simp [required]

def FoundIn (field : RecordField α) (names : List String) (index : Nat)
    (entries : List (Yaml × Yaml)) (found : Option α) : Prop :=
  ∀ x, found = some x → ∃ entry ∈ entries,
    fieldIndex? names entry.1 = .ok (some index) ∧ field.read entry.2 = .ok x

variable {names : List String} {index : Nat} {entries : List (Yaml × Yaml)} {found : Option α}

theorem foundIn_none : a.FoundIn names index entries none :=
  fun _ h => nomatch h

theorem FoundIn.yields (h : a.FoundIn names index entries found)
    (finished : a.finish found = .ok x) : a.Yields x := by
  rw [finish_eq_ok_iff] at finished
  cases found with
  | none => exact .inr finished
  | some first =>
      obtain ⟨entry, -, -, hread⟩ := h x finished
      exact .inl ⟨entry.2, hread⟩

theorem foundIn_of_setOnce {entry : Yaml × Yaml} {current : Option α} (hentry : entry ∈ entries)
    (hindex : fieldIndex? names entry.1 = .ok (some index))
    (h : setOnce a.name current (a.read entry.2) = .ok found) :
    a.FoundIn names index entries found := by
  rw [setOnce] at h
  split at h
  · cases h
  · intro x hx
    refine ⟨entry, hentry, hindex, ?_⟩
    cases hread : a.read entry.2 with
    | error fault =>
        rw [hread] at h
        cases h
    | ok first =>
        rw [hread] at h
        obtain rfl := Option.some.inj ((Except.ok.inj h).trans hx)
        rfl

theorem yields_of_item {expected : String} {position : Nat} {items : List Yaml}
    (h : a.item expected position items = .ok x) : a.Yields x := by
  cases items with
  | cons value rest => exact .inl ⟨value, h⟩
  | nil =>
      rw [item] at h
      split at h
      · rename_i absent
        exact .inr (absent.trans (congrArg some (Except.ok.inj h)))
      · cases h

end RecordField

section Entries

variable {entries : List (Yaml × Yaml)}

theorem exists_of_entries₁ (h : entries₁ a entries = .ok x) :
    ∃ found, a.FoundIn [a.name] 0 entries found ∧ a.finish found = .ok x := by
  obtain ⟨found, hfound, finished⟩ := exists_of_bind_eq_ok h
  refine ⟨found, ?_, finished⟩
  apply foldlM_induction hfound RecordField.foundIn_none
  rintro before entry after hentry hstep hbefore
  obtain ⟨index, hindex, hset⟩ := exists_of_bind_eq_ok hstep
  split at hset
  · exact RecordField.foundIn_of_setOnce hentry hindex hset
  · cases hset
    exact hbefore

theorem exists_of_entries₂ (h : entries₂ a b entries = .ok (x, y)) :
    ∃ found found', a.FoundIn [a.name, b.name] 0 entries found ∧
      b.FoundIn [a.name, b.name] 1 entries found' ∧
      a.finish found = .ok x ∧ b.finish found' = .ok y := by
  obtain ⟨⟨found, found'⟩, hfound, others⟩ := exists_of_bind_eq_ok h
  obtain ⟨_, finished, others⟩ := exists_of_bind_eq_ok others
  obtain ⟨_, finished', hpair⟩ := exists_of_bind_eq_ok others
  cases hpair
  suffices both : a.FoundIn [a.name, b.name] 0 entries found ∧
      b.FoundIn [a.name, b.name] 1 entries found' from
    ⟨found, found', both.1, both.2, finished, finished'⟩
  apply foldlM_induction (motive := fun found => a.FoundIn [a.name, b.name] 0 entries found.1 ∧
    b.FoundIn [a.name, b.name] 1 entries found.2) hfound
  · exact ⟨RecordField.foundIn_none, RecordField.foundIn_none⟩
  · rintro ⟨first, second⟩ entry after hentry hstep hbefore
    obtain ⟨index, hindex, hset⟩ := exists_of_bind_eq_ok hstep
    split at hset
    · obtain ⟨found, hread, hpair⟩ := exists_of_bind_eq_ok hset
      cases hpair
      exact ⟨RecordField.foundIn_of_setOnce hentry hindex hread, hbefore.2⟩
    · obtain ⟨found, hread, hpair⟩ := exists_of_bind_eq_ok hset
      cases hpair
      exact ⟨hbefore.1, RecordField.foundIn_of_setOnce hentry hindex hread⟩
    · cases hset
      exact hbefore

theorem yields_of_entries₁ (h : entries₁ a entries = .ok x) : a.Yields x := by
  obtain ⟨found, hfound, finished⟩ := exists_of_entries₁ h
  exact hfound.yields finished

theorem yields_of_entries₂ (h : entries₂ a b entries = .ok (x, y)) : a.Yields x ∧ b.Yields y := by
  obtain ⟨found, found', hfound, hfound', finished, finished'⟩ := exists_of_entries₂ h
  exact ⟨hfound.yields finished, hfound'.yields finished'⟩

theorem absent_of_entries₂ (h : entries₂ a b entries = .ok (x, y))
    (unnamed : ∀ entry ∈ entries, fieldIndex? [a.name, b.name] entry.1 ≠ .ok (some 1)) :
    b.absent = some y := by
  obtain ⟨-, found, -, hfound, -, finished⟩ := exists_of_entries₂ h
  rw [RecordField.finish_eq_ok_iff] at finished
  cases found with
  | none => exact finished
  | some first =>
      obtain ⟨entry, hentry, hindex, -⟩ := hfound first rfl
      exact absurd hindex (unnamed entry hentry)

end Entries

theorem yields_of_items₁ {expected tooMany : String} {items : List Yaml}
    (h : items₁ a expected tooMany items = .ok x) : a.Yields x := by
  obtain ⟨found, hitem, others⟩ := exists_of_bind_eq_ok h
  obtain ⟨_, -, hx⟩ := exists_of_bind_eq_ok others
  cases hx
  exact RecordField.yields_of_item hitem

theorem yields_of_items₂ {expected tooMany : String} {items : List Yaml}
    (h : items₂ a b expected tooMany items = .ok (x, y)) : a.Yields x ∧ b.Yields y := by
  obtain ⟨first, hfirst, others⟩ := exists_of_bind_eq_ok h
  obtain ⟨second, hsecond, others⟩ := exists_of_bind_eq_ok others
  obtain ⟨_, -, hpair⟩ := exists_of_bind_eq_ok others
  cases hpair
  exact ⟨RecordField.yields_of_item hfirst, RecordField.yields_of_item hsecond⟩

section Lists

variable {read : Decoder α} {xs : List α}

theorem listOf_written {write : α → Yaml} (each : ∀ x ∈ xs, read (write x) = .ok x) :
    listOf read (.sequence (xs.map write)) = .ok xs := by
  rw [listOf, mapM_eq_ok_iff, List.forall₂_map_left_iff, List.forall₂_same]
  exact each

theorem exists_read_of_listOf {value : Yaml} (h : listOf read value = .ok xs) :
    ∀ x ∈ xs, ∃ item, read item = .ok x := by
  intro x hx
  cases value with
  | sequence items =>
      rw [listOf, mapM_eq_ok_iff] at h
      obtain ⟨item, -, hitem⟩ := exists_left_of_forall₂ h hx
      exact ⟨item, hitem⟩
  | _ => cases h

end Lists

section Written

variable {u v : Yaml}

theorem entries₁_written (hread : a.read u = .ok x) :
    entries₁ a [(.string a.name, u)] = .ok x := by
  have index : fieldIndex? [a.name] (.string a.name) = .ok (some 0) := by
    simp [fieldIndex?, List.idxOf?_cons]
  simp only [entries₁, List.foldlM_cons, List.foldlM_nil, index, hread]
  rfl

theorem entries₂_written (distinct : a.name ≠ b.name) (hread : a.read u = .ok x)
    (hread' : b.read v = .ok y) :
    entries₂ a b [(.string a.name, u), (.string b.name, v)] = .ok (x, y) := by
  have index : fieldIndex? [a.name, b.name] (.string a.name) = .ok (some 0) := by
    simp [fieldIndex?, List.idxOf?_cons]
  have index' : fieldIndex? [a.name, b.name] (.string b.name) = .ok (some 1) := by
    simp [fieldIndex?, List.idxOf?_cons, distinct]
  simp only [entries₂, List.foldlM_cons, List.foldlM_nil, index, index', hread, hread']
  rfl

theorem entries₂_written_first (hread : a.read u = .ok x) (absent : b.absent = some y) :
    entries₂ a b [(.string a.name, u)] = .ok (x, y) := by
  have index : fieldIndex? [a.name, b.name] (.string a.name) = .ok (some 0) := by
    simp [fieldIndex?, List.idxOf?_cons]
  have finished : b.finish none = .ok y := RecordField.finish_eq_ok_iff.mpr absent
  simp only [entries₂, List.foldlM_cons, List.foldlM_nil, index, hread]
  change (do
    let first ← a.finish (some x)
    let second ← b.finish none
    return (first, second)) = _
  rw [finished]
  rfl

end Written

end Conform.Decoding
