import Conform.Validator.Check

namespace Conform

/-- The checks of a schema, one for each node in use. Members of unions and intersections lie lower
than what combines them, in some rank, so that following members comes to an end. -/
structure Validator where
  checks : List Check
  root : Slot
  rootType : String
  ranked : ∃ rank : Slot → Nat, ∀ slot check, checks[slot]? = some check →
    ∀ m ∈ check.combined, rank m < rank slot

namespace Validator

def slotCount (validator : Validator) : Nat := validator.checks.length

noncomputable def rank (validator : Validator) : Slot → Nat := validator.ranked.choose

theorem rank_lt_rank {validator : Validator} {slot m : Slot} {check : Check}
    (h : validator.checks[slot]? = some check) (hm : m ∈ check.combined) :
    validator.rank m < validator.rank slot :=
  validator.ranked.choose_spec slot check h m hm

end Validator
end Conform
