import Conform.Proofs.Outcome
import Conform.Proofs.Validator.Building
import Conform.Validator.Acyclic

/-!
The search for cycles of unions and intersections. It names a slot on a cycle if it fails, and if it
succeeds there is none: the slots are then ranked. Through the images the cycles in the arena are
the cycles in the part of the schema that is reached.
-/

namespace Conform

open Relation

namespace Arena

variable {arena : Arena}

def Combines (arena : Arena) (slot m : Slot) : Prop := m ∈ arena.combined slot

theorem combines_of_entry {slot m : Slot} {entry : NodeId × Check}
    (hslot : arena[slot]? = some entry) (hm : m ∈ entry.2.combined) : arena.Combines slot m := by
  simpa [Combines, combined, hslot] using hm

theorem Combines.exists_entry {slot m : Slot} (h : arena.Combines slot m) :
    ∃ entry, arena[slot]? = some entry ∧ m ∈ entry.2.combined := by
  rw [Combines, combined] at h
  cases hslot : arena[slot]? with
  | none => simp [hslot] at h
  | some entry => exact ⟨entry, rfl, by simpa [hslot] using h⟩

def OnCycle (arena : Arena) (origin : NodeId) : Prop :=
  ∃ slot check, arena[slot]? = some (origin, check) ∧ TransGen arena.Combines slot slot

/-- The active slots lead to the slot that is searched, so one that comes again is on a cycle. -/
private theorem onCycle_of_searchCycle (active done : List Slot) (slot : Slot)
    (lead : ∀ a ∈ active, TransGen arena.Combines a slot) {origin : NodeId}
    (h : arena.searchCycle active done slot = .error origin) : arena.OnCycle origin := by
  fun_induction searchCycle arena active done slot with
  | case1 => cases h
  | case2 active done slot culprit check hslot hactive =>
      obtain rfl : culprit = origin := by simpa using h
      exact ⟨slot, check, hslot, lead slot hactive⟩
  | case3 => cases h
  | case4 active done slot _ check hslot _ _ ih =>
      cases hmembers : check.combined.foldlM
          (fun done m => arena.searchCycle (slot :: active) done m) done with
      | ok searched =>
          rw [hmembers] at h
          cases h
      | error culprit =>
          rw [hmembers] at h
          obtain rfl : culprit = origin := by
            cases h
            rfl
          obtain ⟨m, hm, before, herror⟩ := exists_of_foldlM_eq_error hmembers
          have step : arena.Combines slot m := combines_of_entry hslot hm
          -- Below `slot` the active slots are those from before, which lead on to `m`, and itself.
          refine ih before m (fun a ha => ?_) herror
          rcases List.mem_cons.mp ha with rfl | ha
          · exact TransGen.single step
          · exact (lead a ha).tail step

theorem onCycle_of_searchCycles {origin : NodeId} (h : arena.searchCycles = .error origin) :
    arena.OnCycle origin := by
  obtain ⟨slot, _, before, herror⟩ := exists_of_foldlM_eq_error h
  exact onCycle_of_searchCycle [] before slot (by simp) herror

/-- Along members the place in the order of the search falls, so none comes again. -/
theorem acyclic_of_searchCycles {done : List Slot} (h : arena.searchCycles = .ok done)
    (slot : Slot) : ¬ TransGen arena.Combines slot slot := by
  obtain ⟨membersFirst, covers⟩ := membersFirst_of_searchCycles h
  have lower : ∀ {a b}, TransGen arena.Combines a b → rankIn done b < rankIn done a := by
    intro a b hab
    have step : ∀ {a b}, arena.Combines a b → rankIn done b < rankIn done a := by
      intro a b hab
      obtain ⟨entry, hentry, _⟩ := hab.exists_entry
      exact membersFirst.rankIn_lt (covers a (List.getElem?_eq_some_iff.mp hentry).1) hab
    induction hab with
    | single hb => exact step hb
    | tail _ hc ih => exact Nat.lt_trans (step hc) ih
  intro hcycle
  exact Nat.lt_irrefl _ (lower hcycle)

/-! The search by one equation for each case of the slot. -/

section Equations

variable {active done : List Slot} {slot : Slot} {origin : NodeId} {check : Check}

theorem searchCycle_of_outside (hslot : arena[slot]? = none) :
    arena.searchCycle active done slot = .ok (slot :: done) := by
  rw [searchCycle]
  split <;> simp_all

theorem searchCycle_of_active (hslot : arena[slot]? = some (origin, check))
    (hactive : slot ∈ active) : arena.searchCycle active done slot = .error origin := by
  rw [searchCycle]
  split <;> simp_all

theorem searchCycle_of_done (hslot : arena[slot]? = some (origin, check))
    (hactive : slot ∉ active) (hdone : slot ∈ done) :
    arena.searchCycle active done slot = .ok done := by
  rw [searchCycle]
  split <;> simp_all

theorem searchCycle_of_new (hslot : arena[slot]? = some (origin, check))
    (hactive : slot ∉ active) (hdone : slot ∉ done) :
    arena.searchCycle active done slot =
      (check.combined.foldlM (arena.searchCycle (slot :: active)) done).map (slot :: ·) := by
  rw [searchCycle]
  split
  · simp_all
  · rename_i other otherCheck hother
    obtain ⟨rfl, rfl⟩ := Prod.mk.inj (Option.some.inj (hslot.symm.trans hother))
    rw [dif_neg hactive, if_neg hdone]
    change check.combined.foldlM (arena.searchCycle (slot :: active)) done >>= _ = _
    cases check.combined.foldlM (arena.searchCycle (slot :: active)) done <;> rfl

end Equations

variable {other : Arena} {rename : NodeId → NodeId}

def outline (arena : Arena) : List (NodeId × List Slot) :=
  arena.map fun entry => (entry.1, entry.2.combined)

theorem exists_entry_of_outline_eq {slot : Slot} {origin : NodeId} {check : Check}
    (same : other.outline = arena.outline.map (Prod.map rename id))
    (h : arena[slot]? = some (origin, check)) :
    ∃ check', other[slot]? = some (rename origin, check') ∧
      check'.combined = check.combined := by
  have here : other.outline[slot]? = some (rename origin, check.combined) := by
    rw [same, outline, List.getElem?_map, List.getElem?_map, h]
    rfl
  rw [outline, List.getElem?_map] at here
  obtain ⟨⟨origin', check'⟩, hother, heq⟩ := Option.map_eq_some_iff.mp here
  obtain ⟨rfl, hcombined⟩ := Prod.mk.inj heq
  exact ⟨check', hother, hcombined⟩

theorem length_eq_of_outline_eq (same : other.outline = arena.outline.map (Prod.map rename id)) :
    other.length = arena.length := by
  simpa [outline] using congrArg List.length same

private theorem searchCycle_of_outline_eq
    (same : other.outline = arena.outline.map (Prod.map rename id)) (active done : List Slot)
    (slot : Slot) :
    other.searchCycle active done slot =
      (arena.searchCycle active done slot).mapError rename := by
  fun_induction searchCycle arena active done slot with
  | case1 active done slot hslot =>
      refine searchCycle_of_outside ?_
      rw [List.getElem?_eq_none_iff, length_eq_of_outline_eq same]
      exact List.getElem?_eq_none_iff.mp hslot
  | case2 active done slot origin check hslot hactive =>
      obtain ⟨check', hother, -⟩ := exists_entry_of_outline_eq same hslot
      exact searchCycle_of_active hother hactive
  | case3 active done slot origin check hslot hactive hdone =>
      obtain ⟨check', hother, -⟩ := exists_entry_of_outline_eq same hslot
      exact searchCycle_of_done hother hactive hdone
  | case4 active done slot origin check hslot hactive hdone ih =>
      obtain ⟨check', hother, hcombined⟩ := exists_entry_of_outline_eq same hslot
      have members : check.combined.foldlM (other.searchCycle (slot :: active)) done =
          (check.combined.foldlM (arena.searchCycle (slot :: active)) done).mapError rename := by
        rw [foldlM_mapError]
        exact congrArg (check.combined.foldlM · done) (funext fun done => funext fun m => ih done m)
      rw [searchCycle_of_new hother hactive hdone, hcombined, members]
      change _ = Except.mapError rename
        (check.combined.foldlM (arena.searchCycle (slot :: active)) done >>= _)
      cases check.combined.foldlM (arena.searchCycle (slot :: active)) done <;> rfl

theorem searchCycles_of_outline_eq
    (same : other.outline = arena.outline.map (Prod.map rename id)) :
    other.searchCycles = arena.searchCycles.mapError rename := by
  rw [searchCycles, searchCycles, foldlM_mapError, length_eq_of_outline_eq same]
  exact congrArg (fun f => (List.range arena.length).foldlM f [])
    (funext fun done => funext fun slot => searchCycle_of_outline_eq same [] done slot)

theorem searchCycles_eq_of_outline_eq (same : other.outline = arena.outline) :
    other.searchCycles = arena.searchCycles := by
  have renamed : other.outline = arena.outline.map (Prod.map id id) := by simpa using same
  rw [searchCycles_of_outline_eq renamed]
  cases arena.searchCycles <;> rfl

end Arena
end Conform
