import Conform.Validator.Acyclic
import Conform.Validator.Basic
import Conform.Validator.Builder

namespace Conform

namespace Arena

def checks (arena : Arena) : List Check := arena.map (·.2)

theorem ranked {arena : Arena} {done : List Slot} (h : arena.searchCycles = .ok done) :
    ∀ slot check, arena.checks[slot]? = some check →
      ∀ m ∈ check.combined, rankIn done m < rankIn done slot := by
  obtain ⟨membersFirst, covers⟩ := membersFirst_of_searchCycles h
  intro slot check hcheck m hm
  rw [checks, List.getElem?_map] at hcheck
  obtain ⟨entry, hentry, rfl⟩ := Option.map_eq_some_iff.1 hcheck
  exact membersFirst.rankIn_lt (covers slot (List.getElem?_eq_some_iff.1 hentry).1)
    (by simpa [combined, hentry] using hm)

end Arena

namespace Schema

def compile (schema : Schema) : Except BuildFault Validator := do
  let ⟨(root, builder), _⟩ ← schema.slotFor .empty schema.root
  let arena ← builder.resolve
  match hdone : arena.searchCycles with
  | .error origin => .error (.combinatorCycle origin)
  | .ok done =>
    .ok {
      checks := arena.checks
      root
      rootType := schema.render schema.root
      ranked := ⟨rankIn done, Arena.ranked hdone⟩ }

end Schema
end Conform
