import Conform.Schema.Unvisited
import Conform.Validator.Check

/-!
Cycles of unions and intersections. Objects, arrays and tuples use up one level of a value, so a
cycle through one of them ends with the value; a cycle of unions and intersections alone would never
end. The search below finds such a cycle or lists the slots in an order in which members come first.
-/

namespace Conform

namespace Arena

def unvisited (arena : Arena) (visited : List Slot) : Nat := unseen arena.length visited

theorem unvisited_cons_lt {arena : Arena} {slot : Slot} {entry : NodeId × Check}
    {visited : List Slot} (hslot : arena[slot]? = some entry) (hnew : slot ∉ visited) :
    arena.unvisited (slot :: visited) < arena.unvisited visited :=
  unseen_lt (List.getElem?_eq_some_iff.1 hslot).1 hnew (by simp) (by simp)

/-- Searches below a slot, depth first. `active` are the slots that lead here and `done` those that
were searched without finding anything, latest first. The result is the node of a slot that leads
back to itself, or the slots done now. -/
def searchCycle (arena : Arena) (active done : List Slot) (slot : Slot) :
    Except NodeId (List Slot) :=
  match _ : arena[slot]? with
  | none => .ok (slot :: done)
  | some (origin, check) =>
    if _ : slot ∈ active then .error origin
    else if slot ∈ done then .ok done
    else do
      let done ←
        check.combined.foldlM (fun done m => arena.searchCycle (slot :: active) done m) done
      return slot :: done
termination_by arena.unvisited active
decreasing_by exact unvisited_cons_lt ‹_› ‹_›

def searchCycles (arena : Arena) : Except NodeId (List Slot) :=
  (List.range arena.length).foldlM (fun done slot => arena.searchCycle [] done slot) []

def combined (arena : Arena) (slot : Slot) : List Slot := arena[slot]?.elim [] (·.2.combined)

/-- Members come before what combines them; the list is read from its end. -/
def MembersFirst (arena : Arena) : List Slot → Prop
  | [] => True
  | slot :: earlier => (∀ m ∈ arena.combined slot, m ∈ earlier) ∧ arena.MembersFirst earlier

private structure Extends (arena : Arena) (done : List Slot) (slots : List Slot)
    (result : List Slot) : Prop where
  membersFirst : arena.MembersFirst done → arena.MembersFirst result
  keeps : ∀ slot ∈ done, slot ∈ result
  reaches : ∀ slot ∈ slots, slot ∈ result

private theorem extends_foldlM {arena : Arena} {f : List Slot → Slot → Except NodeId (List Slot)}
    (hf : ∀ done slot result, f done slot = .ok result → arena.Extends done [slot] result)
    {slots done result : List Slot} (h : slots.foldlM f done = .ok result) :
    arena.Extends done slots result := by
  induction slots generalizing done with
  | nil =>
    obtain rfl : done = result := by simpa [pure, Except.pure] using h
    exact ⟨id, fun _ => id, by simp⟩
  | cons first rest ih =>
    simp only [List.foldlM_cons] at h
    cases hfirst : f done first with
    | error e => simp [hfirst, bind, Except.bind] at h
    | ok next =>
      simp only [hfirst, bind, Except.bind] at h
      have step := hf _ _ _ hfirst
      have tail := ih h
      refine ⟨fun hd => tail.membersFirst (step.membersFirst hd),
        fun slot hslot => tail.keeps slot (step.keeps slot hslot), fun slot hslot => ?_⟩
      rcases List.mem_cons.1 hslot with rfl | hslot
      · exact tail.keeps _ (step.reaches _ (by simp))
      · exact tail.reaches slot hslot

private theorem extends_searchCycle {arena : Arena} (active done : List Slot) (slot : Slot) :
    ∀ result, arena.searchCycle active done slot = .ok result →
      arena.Extends done [slot] result := by
  fun_induction searchCycle arena active done slot with
  | case1 active done slot hslot =>
    intro result h
    obtain rfl : slot :: done = result := by simpa using h
    refine ⟨fun h => ⟨by simp [combined, hslot], h⟩, fun _ h => List.mem_cons_of_mem _ h, by simp⟩
  | case2 => intro result h; simp at h
  | case3 active done slot _ _ _ _ hdone =>
    intro result h
    obtain rfl : done = result := by simpa using h
    exact ⟨fun h => h, fun _ h => h, by simpa using hdone⟩
  | case4 active done slot origin check hslot _ _ ih =>
    intro result h
    cases hmembers : check.combined.foldlM
        (fun done m => arena.searchCycle (slot :: active) done m) done with
    | error e => simp [hmembers, bind, Except.bind] at h
    | ok searched =>
      obtain rfl : slot :: searched = result := by
        simpa [hmembers, bind, Except.bind, pure, Except.pure] using h
      have members := extends_foldlM (fun done m result h => ih done m result h) hmembers
      refine ⟨fun h => ⟨?_, members.membersFirst h⟩,
        fun i h => List.mem_cons_of_mem _ (members.keeps i h), by simp⟩
      simpa [combined, hslot] using members.reaches

theorem membersFirst_of_searchCycles {arena : Arena} {done : List Slot}
    (h : arena.searchCycles = .ok done) :
    arena.MembersFirst done ∧ ∀ slot < arena.length, slot ∈ done := by
  have all := extends_foldlM (fun done slot => extends_searchCycle [] done slot) h
  exact ⟨all.membersFirst trivial, by simpa using all.reaches⟩

end Arena

/-- Position of a slot in a list that is read from its end; a slot that is not there comes first. -/
def rankIn : List Slot → Slot → Nat
  | [], _ => 0
  | last :: earlier, slot =>
    if slot ∈ earlier then rankIn earlier slot else if slot = last then earlier.length + 1 else 0

theorem rankIn_le_length (done : List Slot) (slot : Slot) : rankIn done slot ≤ done.length := by
  induction done with
  | nil => simp [rankIn]
  | cons last earlier ih =>
    simp only [rankIn, List.length_cons]
    split
    · omega
    · split <;> omega

namespace Arena

theorem MembersFirst.mem_of_mem_combined {arena : Arena} {done : List Slot}
    (h : arena.MembersFirst done) {slot m : Slot} (hslot : slot ∈ done)
    (hm : m ∈ arena.combined slot) : m ∈ done := by
  induction done with
  | nil => simp at hslot
  | cons last earlier ih =>
    rcases List.mem_cons.1 hslot with rfl | hslot
    · exact List.mem_cons_of_mem _ (h.1 m hm)
    · exact List.mem_cons_of_mem _ (ih h.2 hslot)

theorem MembersFirst.rankIn_lt {arena : Arena} {done : List Slot} (h : arena.MembersFirst done)
    {slot m : Slot} (hslot : slot ∈ done) (hm : m ∈ arena.combined slot) :
    rankIn done m < rankIn done slot := by
  induction done with
  | nil => simp at hslot
  | cons last earlier ih =>
    by_cases hmem : slot ∈ earlier
    · simpa [rankIn, hmem, h.2.mem_of_mem_combined hmem hm] using ih h.2 hmem
    · obtain rfl : slot = last := by simpa [hmem] using hslot
      have := rankIn_le_length earlier m
      simp only [rankIn, hmem, h.1 m hm, if_true, if_false]
      omega

end Arena
end Conform
