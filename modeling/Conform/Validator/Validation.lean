import Conform.Validator.Basic
import Conform.Validator.Descent

/-!
Checking values. Mismatches come in the order in which they are found, and all of them, except below
a union: its members are tried in order, the first without mismatch decides, and a union that fails
is one mismatch. Reaching the limit ends everything without any mismatches.

An object accepts the keys it declares. Inside an intersection, through unions and intersections
alone, it accepts the keys of the outermost intersection as well; these are `widened` below.
-/

namespace Conform

theorem Json.sizeOf_lt_of_field? {entries : List (String × Json)} {key : String} {value : Json}
    (h : Json.field? entries key = some value) : sizeOf value < sizeOf entries := by
  unfold Json.field? at h
  obtain ⟨⟨k, v⟩, hfind, rfl⟩ := Option.map_eq_some_iff.1 h
  have := List.sizeOf_lt_of_mem (List.mem_of_find?_eq_some hfind)
  simp only [Prod.mk.sizeOf_spec] at this
  simp only
  omega

private theorem lex_of_le {a b c d : Nat} (hab : a ≤ b) (hcd : c < d) :
    Prod.Lex (· < ·) (· < ·) (a, c) (b, d) := by
  rcases Nat.lt_or_eq_of_le hab with h | rfl
  · exact Prod.Lex.left _ _ h
  · exact Prod.Lex.right _ hcd

def absence (path : List String) (property : PropertyCheck) : List Mismatch :=
  if property.isOptional then []
  else
    [.saying (propertyPath path property.key) .property
      s!" is required, but missing; {property.expected} is expected."]

/-- One mismatch for each key that an object neither declares nor finds in `widened`. -/
def unknownKeys (path : List String) (name : String) (properties : List PropertyCheck)
    (widened : List String) (entries : List (String × Json)) : List Mismatch :=
  (entries.filter fun (key, _) => !properties.any (·.key == key) && key ∉ widened).map
    fun (key, _) => .saying path .property s!" has unknown key '{key}'; {name} is expected."

namespace Validator

noncomputable def rankBound (validator : Validator) : List Slot → Nat
  | [] => 0
  | m :: rest => max (validator.rank m + 1) (validator.rankBound rest)

private theorem rankBound_le_cons (validator : Validator) (m : Slot) (rest : List Slot) :
    2 * validator.rankBound rest ≤ 2 * validator.rankBound (m :: rest) := by
  simp only [rankBound]
  omega

theorem rankBound_le {validator : Validator} {slot : Slot} {check : Check} {members : List Slot}
    (h : validator.checks[slot]? = some check) (hm : members ⊆ check.combined) :
    validator.rankBound members ≤ validator.rank slot := by
  induction members with
  | nil => simp [rankBound]
  | cons m rest ih =>
    have hrest := ih fun _ hx => hm (List.mem_cons_of_mem _ hx)
    have hfirst := rank_lt_rank h (hm (List.mem_cons_self ..))
    simp only [rankBound]
    omega

mutual

def check (validator : Validator) (path : List String) (guard : Guard)
    (widened : Option (List String)) (slot : Slot) (value : Json) :
    Except LimitReached (List Mismatch) :=
  match _ : validator.checks[slot]? with
  | none => .ok []
  | some (.valueType kind) =>
    if kind.admits value then .ok []
    else .ok [.saying path .valueType s!" is not {kind.noun}."]
  | some (.literal expected rendered) =>
    if expected.admits value then .ok []
    else .ok [.saying path .literal s!" does not match literal {rendered}."]
  | some (.enum name values listed) =>
    if values.any (·.admits value) then .ok []
    else
      .ok [.saying path .enum
        s!" does not match any member of Enum({name}). Possibilities: {listed}."]
  | some (.array element) =>
    match value with
    | .array items => validator.checkItems path guard element 0 items
    | _ => .ok [.saying path .array " is not an array."]
  | some (.tuple elements rendered) =>
    match value with
    | .array items =>
      if items.length = elements.length then validator.checkTuple path guard 0 elements items
      else
        .ok [.saying path .tuple
          s!" has {items.length} element(s), but tuple {rendered} is expected."]
    | _ => .ok [.saying path .tuple s!" is not an array, but tuple {rendered} is expected."]
  | some (.union members possibilities) => do
    if ← validator.acceptsAny path guard widened members value then return []
    else
      return [.saying path .union
        s!" does not match any union member. Possibilities: {possibilities}."]
  | some (.intersection members declared) =>
    validator.checkAll path guard (widened.getD declared) members value
  | some (.object name properties) =>
    match value with
    | .object entries => do
      let inner ← guard.enter slot
      let path := objectPath path name
      let found ← validator.checkProperties path inner properties entries
      return found ++ unknownKeys path name properties (widened.getD []) entries
    | _ => .ok [.saying path .object s!" is not an object, but {name} is expected."]
termination_by (sizeOf value, 2 * validator.rank slot + 1, 0)
decreasing_by
  · exact Prod.Lex.left _ _ (by simp)
  · exact Prod.Lex.left _ _ (by simp)
  · exact Prod.Lex.right _ (Prod.Lex.left _ _ (by
      have : validator.rankBound members ≤ validator.rank slot :=
        rankBound_le ‹_› (List.Subset.refl _)
      omega))
  · exact Prod.Lex.right _ (Prod.Lex.left _ _ (by
      have : validator.rankBound members ≤ validator.rank slot :=
        rankBound_le ‹_› (List.Subset.refl _)
      omega))
  · exact Prod.Lex.left _ _ (by simp)

def checkItems (validator : Validator) (path : List String) (guard : Guard) (element : Slot)
    (i : Nat) : List Json → Except LimitReached (List Mismatch)
  | [] => .ok []
  | item :: rest => do
    let found ← validator.check (elementPath path i) guard none element item
    return found ++ (← validator.checkItems path guard element (i + 1) rest)
termination_by items => (sizeOf items, 0, 0)
decreasing_by
  · exact Prod.Lex.left _ _ (by simp only [List.cons.sizeOf_spec]; omega)
  · exact Prod.Lex.left _ _ (by simp only [List.cons.sizeOf_spec]; omega)

def checkTuple (validator : Validator) (path : List String) (guard : Guard) (i : Nat) :
    List Slot → List Json → Except LimitReached (List Mismatch)
  | element :: elements, item :: items => do
    let found ← validator.check (elementPath path i) guard none element item
    return found ++ (← validator.checkTuple path guard (i + 1) elements items)
  | _, _ => .ok []
termination_by _ items => (sizeOf items, 0, 0)
decreasing_by
  · exact Prod.Lex.left _ _ (by simp only [List.cons.sizeOf_spec]; omega)
  · exact Prod.Lex.left _ _ (by simp only [List.cons.sizeOf_spec]; omega)

/-- Whether some member has no mismatch with a value; later members are not tried. -/
def acceptsAny (validator : Validator) (path : List String) (guard : Guard)
    (widened : Option (List String)) : List Slot → Json → Except LimitReached Bool
  | [], _ => .ok false
  | m :: rest, value => do
    if (← validator.check path guard widened m value).isEmpty then return true
    else validator.acceptsAny path guard widened rest value
termination_by members value => (sizeOf value, 2 * validator.rankBound members, members.length)
decreasing_by
  · exact Prod.Lex.right _ (Prod.Lex.left _ _ (by simp only [rankBound]; omega))
  · exact Prod.Lex.right _ (lex_of_le (rankBound_le_cons ..) (Nat.lt_succ_self _))

def checkAll (validator : Validator) (path : List String) (guard : Guard)
    (widened : List String) : List Slot → Json → Except LimitReached (List Mismatch)
  | [], _ => .ok []
  | m :: rest, value => do
    let found ← validator.check path guard (some widened) m value
    return found ++ (← validator.checkAll path guard widened rest value)
termination_by members value => (sizeOf value, 2 * validator.rankBound members, members.length)
decreasing_by
  · exact Prod.Lex.right _ (Prod.Lex.left _ _ (by simp only [rankBound]; omega))
  · exact Prod.Lex.right _ (lex_of_le (rankBound_le_cons ..) (Nat.lt_succ_self _))

def checkProperties (validator : Validator) (path : List String) (guard : Guard) :
    List PropertyCheck → List (String × Json) → Except LimitReached (List Mismatch)
  | [], _ => .ok []
  | property :: rest, entries =>
    match _ : Json.field? entries property.key with
    | some field => do
      let found ← validator.check (propertyPath path property.key) guard none property.slot field
      return found ++ (← validator.checkProperties path guard rest entries)
    | none => do
      return absence path property ++ (← validator.checkProperties path guard rest entries)
termination_by properties entries => (sizeOf entries, 0, properties.length)
decreasing_by
  · exact Prod.Lex.left _ _ (Json.sizeOf_lt_of_field? ‹_›)
  · exact Prod.Lex.right _ (Prod.Lex.right _ (Nat.lt_succ_self _))
  · exact Prod.Lex.right _ (Prod.Lex.right _ (Nat.lt_succ_self _))

end

/-- All mismatches of a value, none if it matches, unless along one path some object is entered
again more than `limit` times; zero sets no limit. -/
def validate (validator : Validator) (value : Json) (limit : Nat) :
    Except LimitReached (List Mismatch) :=
  validator.check rootPath (Guard.start limit) none validator.root value

end Validator

def defaultLimit : Nat := 0

end Conform
