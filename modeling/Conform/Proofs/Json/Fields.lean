import Conform.Json.Basic
import Mathlib.Data.List.Nodup

namespace Conform.Json

variable {α : Type} {key : String} {value : α} {entries : List (String × α)}

theorem mem_of_field? (h : field? entries key = some value) : (key, value) ∈ entries := by
  obtain ⟨⟨k, v⟩, hfind, rfl⟩ := Option.map_eq_some_iff.mp h
  have same : k = key := by simpa using List.find?_some hfind
  rw [← same]
  exact List.mem_of_find?_eq_some hfind

theorem field?_eq_none_iff : field? entries key = none ↔ key ∉ entries.map (·.1) := by
  simp only [field?, Option.map_eq_none_iff, List.find?_eq_none, beq_iff_eq, List.mem_map,
    not_exists, not_and]

theorem field?_eq_some_iff (distinct : (entries.map (·.1)).Nodup) :
    field? entries key = some value ↔ (key, value) ∈ entries := by
  refine ⟨mem_of_field?, fun h => ?_⟩
  induction entries with
  | nil => cases h
  | cons first rest ih =>
      rw [List.map_cons, List.nodup_cons] at distinct
      rcases List.mem_cons.mp h with rfl | hrest
      · simp [field?]
      · have hkey : key ∈ rest.map (·.1) := List.mem_map_of_mem hrest
        have other : first.1 ≠ key := fun same => distinct.1 (same ▸ hkey)
        rw [← ih distinct.2 hrest]
        simp [field?, other]

theorem field?_rel {β : Type} {R : α → β → Prop} {entries' : List (String × β)}
    (distinct : (entries.map (·.1)).Nodup) (keys : (entries'.map (·.1)).Perm (entries.map (·.1)))
    (each : ∀ a b, (key, a) ∈ entries → (key, b) ∈ entries' → R a b) :
    Option.Rel R (field? entries key) (field? entries' key) := by
  cases hvalue : field? entries key with
  | none =>
      rw [field?_eq_none_iff, ← keys.mem_iff, ← field?_eq_none_iff] at hvalue
      rw [hvalue]
      exact .none
  | some a =>
      have hentry := mem_of_field? hvalue
      obtain ⟨⟨_, b⟩, hentry', rfl⟩ :=
        List.mem_map.mp (keys.mem_iff.mpr (List.mem_map_of_mem hentry))
      have distinct' : (entries'.map (·.1)).Nodup := keys.nodup_iff.mpr distinct
      rw [(field?_eq_some_iff distinct').mpr hentry']
      exact .some (each a b hentry hentry')

theorem setField_of_notMem (absent : key ∉ entries.map (·.1)) :
    setField key value entries = entries ++ [(key, value)] := by
  induction entries with
  | nil => rfl
  | cons first rest ih =>
      rw [List.map_cons, List.mem_cons, not_or] at absent
      rw [setField, if_neg (by simpa using Ne.symm absent.1), ih absent.2, List.cons_append]

theorem map_fst_setField_of_mem (present : key ∈ entries.map (·.1)) :
    (setField key value entries).map (·.1) = entries.map (·.1) := by
  induction entries with
  | nil => cases present
  | cons first rest ih =>
      rw [setField]
      split
      · rfl
      · rename_i other
        rw [List.map_cons, List.mem_cons] at present
        have later := present.resolve_left fun same => other (by simpa using same.symm)
        rw [List.map_cons, List.map_cons, ih later]

theorem mem_setField {entry : String × α} (h : entry ∈ setField key value entries) :
    entry = (key, value) ∨ entry ∈ entries := by
  induction entries with
  | nil => exact .inl (List.mem_singleton.mp h)
  | cons first rest ih =>
      rw [setField] at h
      split at h
      · rename_i same
        rcases List.mem_cons.mp h with rfl | hrest
        · exact .inl (by rw [beq_iff_eq.mp same])
        · exact .inr (List.mem_cons_of_mem _ hrest)
      · rcases List.mem_cons.mp h with rfl | hrest
        · exact .inr List.mem_cons_self
        · exact (ih hrest).imp_right (List.mem_cons_of_mem _)

theorem nodup_setField (distinct : (entries.map (·.1)).Nodup) :
    ((setField key value entries).map (·.1)).Nodup := by
  by_cases present : key ∈ entries.map (·.1)
  · rw [map_fst_setField_of_mem present]
    exact distinct
  · rw [setField_of_notMem present, List.map_append]
    exact List.nodup_append_comm.mp (List.nodup_cons.mpr ⟨present, distinct⟩)

theorem nodup_mergeFields (entries : List (String × α)) :
    ((mergeFields entries).map (·.1)).Nodup := by
  have empty : (([] : List (String × α)).map (·.1)).Nodup := List.nodup_nil
  exact List.foldlRecOn (motive := fun done : List (String × α) => (done.map (·.1)).Nodup)
    entries _ empty fun _ distinct _ _ => nodup_setField distinct

theorem mem_of_mem_mergeFields {entry : String × α} (h : entry ∈ mergeFields entries) :
    entry ∈ entries := by
  have kept : ∀ done : List (String × α), done ⊆ entries → ∀ entry ∈ entries,
      setField entry.1 entry.2 done ⊆ entries := by
    intro done hdone entry hentry other hother
    rcases mem_setField hother with rfl | hold
    · exact hentry
    · exact hdone hold
  exact List.foldlRecOn (motive := fun done : List (String × α) => done ⊆ entries) entries _
    (List.nil_subset _) kept h

private theorem foldl_setField_of_nodup (done : List (String × α))
    (distinct : ((done ++ entries).map (·.1)).Nodup) :
    entries.foldl (fun done (key, value) => setField key value done) done = done ++ entries := by
  induction entries generalizing done with
  | nil => exact (List.append_nil done).symm
  | cons first rest ih =>
      have absent : first.1 ∉ done.map (·.1) := by
        rw [List.map_append, List.map_cons] at distinct
        exact fun h => (List.nodup_append.mp distinct).2.2 _ h _ List.mem_cons_self rfl
      rw [List.append_cons] at distinct ⊢
      rw [← ih _ distinct, List.foldl_cons, ← setField_of_notMem absent]

theorem mergeFields_of_nodup (distinct : (entries.map (·.1)).Nodup) :
    mergeFields entries = entries :=
  foldl_setField_of_nodup [] distinct

end Conform.Json
