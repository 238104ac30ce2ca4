import Conform.Proofs.Json.Fields
import Conform.Proofs.Json.Parts
import Conform.Validator.Validation
import Mathlib.Logic.Relation

/-!
The calls that checking a value makes. One call asks for the answers of others on parts of the value
or on members of a union or intersection; its answer is a function of theirs. Everything about runs
is an induction over the calls.
-/

namespace Conform

structure Call where
  path : List String
  guard : Guard
  widened : Option (List String)
  slot : Slot
  value : Json

namespace Call

def start (root : Slot) (value : Json) (limit : Nat) : Call :=
  ⟨rootPath, Guard.start limit, none, root, value⟩

def item (call : Call) (element : Slot) (i : Nat) (item : Json) : Call :=
  ⟨elementPath call.path i, call.guard, none, element, item⟩

def member (call : Call) (m : Slot) : Call := { call with slot := m }

def part (call : Call) (declared : List String) (m : Slot) : Call :=
  { call with widened := some (call.widened.getD declared), slot := m }

def field (call : Call) (name : String) (inner : Guard) (property : PropertyCheck) (value : Json) :
    Call :=
  ⟨propertyPath (objectPath call.path name) property.key, inner, none, property.slot, value⟩

end Call

def gather : List (Except ε (List α)) → Except ε (List α)
  | [] => .ok []
  | first :: rest => do
      let found ← first
      return found ++ (← gather rest)

/-- Whether one of several lists is empty. The first that is decides, as does the first that
fails. -/
def anyEmpty : List (Except ε (List α)) → Except ε Bool
  | [] => .ok false
  | first :: rest => do
      if (← first).isEmpty then return true
      else anyEmpty rest

def Call.ofProperty (recur : Call → Except ε (List Mismatch)) (call : Call) (name : String)
    (inner : Guard) (entries : List (String × Json)) (property : PropertyCheck) :
    Except ε (List Mismatch) :=
  match Json.field? entries property.key with
  | some value => recur (call.field name inner property value)
  | none => .ok (absence (objectPath call.path name) property)

/-- The answer to a call when `recur` answers those it makes. `abort` wraps what is thrown when the
limit is reached. -/
def Call.answer (abort : LimitReached → ε) (checks : List Check)
    (recur : Call → Except ε (List Mismatch)) (call : Call) : Except ε (List Mismatch) :=
  match checks[call.slot]? with
  | none => .ok []
  | some (.valueType kind) =>
      if kind.admits call.value then .ok []
      else .ok [.saying call.path .valueType s!" is not {kind.noun}."]
  | some (.literal expected rendered) =>
      if expected.admits call.value then .ok []
      else .ok [.saying call.path .literal s!" does not match literal {rendered}."]
  | some (.enum name values listed) =>
      if values.any (·.admits call.value) then .ok []
      else
        .ok [.saying call.path .enum
          s!" does not match any member of Enum({name}). Possibilities: {listed}."]
  | some (.array element) =>
      match call.value with
      | .array items => gather (items.zipIdx.map fun (item, i) => recur (call.item element i item))
      | _ => .ok [.saying call.path .array " is not an array."]
  | some (.tuple elements rendered) =>
      match call.value with
      | .array items =>
          if items.length = elements.length then
            gather ((elements.zip items).zipIdx.map fun ((element, item), i) =>
              recur (call.item element i item))
          else
            .ok [.saying call.path .tuple
              s!" has {items.length} element(s), but tuple {rendered} is expected."]
      | _ => .ok [.saying call.path .tuple s!" is not an array, but tuple {rendered} is expected."]
  | some (.union members possibilities) => do
      if ← anyEmpty (members.map fun m => recur (call.member m)) then return []
      else
        return [.saying call.path .union
          s!" does not match any union member. Possibilities: {possibilities}."]
  | some (.intersection members declared) =>
      gather (members.map fun m => recur (call.part declared m))
  | some (.object name properties) =>
      match call.value with
      | .object entries => do
          let inner ← (call.guard.enter call.slot).mapError abort
          let found ← gather (properties.map (call.ofProperty recur name inner entries))
          return found ++
            unknownKeys (objectPath call.path name) name properties (call.widened.getD []) entries
      | _ =>
          .ok [.saying call.path .object s!" is not an object, but {name} is expected."]

namespace Validator

def run (validator : Validator) (call : Call) : Except LimitReached (List Mismatch) :=
  validator.check call.path call.guard call.widened call.slot call.value

theorem validate_eq_run (validator : Validator) (value : Json) (limit : Nat) :
    validator.validate value limit = validator.run (.start validator.root value limit) :=
  rfl

variable (validator : Validator)

private theorem checkItems_eq_gather (path : List String) (guard : Guard) (element : Slot) (i : Nat)
    (items : List Json) :
    validator.checkItems path guard element i items =
      gather ((items.zipIdx i).map fun (item, i) =>
        validator.check (elementPath path i) guard none element item) := by
  induction items generalizing i with
  | nil =>
      rw [checkItems]
      rfl
  | cons item rest ih =>
      rw [checkItems, ih]
      rfl

private theorem checkTuple_eq_gather (path : List String) (guard : Guard) (i : Nat)
    (elements : List Slot) (items : List Json) :
    validator.checkTuple path guard i elements items =
      gather (((elements.zip items).zipIdx i).map fun ((element, item), i) =>
        validator.check (elementPath path i) guard none element item) := by
  induction elements generalizing i items with
  | nil =>
      rw [checkTuple]
      · rfl
      · simp
  | cons element elements ih =>
      cases items with
      | nil =>
          rw [checkTuple]
          · rfl
          · simp
      | cons item items =>
          rw [checkTuple, ih]
          rfl

private theorem acceptsAny_eq_anyEmpty (path : List String) (guard : Guard)
    (widened : Option (List String)) (members : List Slot) (value : Json) :
    validator.acceptsAny path guard widened members value =
      anyEmpty (members.map fun m => validator.check path guard widened m value) := by
  induction members with
  | nil =>
      rw [acceptsAny]
      rfl
  | cons m rest ih =>
      rw [acceptsAny, ih]
      rfl

private theorem checkAll_eq_gather (path : List String) (guard : Guard) (widened : List String)
    (members : List Slot) (value : Json) :
    validator.checkAll path guard widened members value =
      gather (members.map fun m => validator.check path guard (some widened) m value) := by
  induction members with
  | nil =>
      rw [checkAll]
      rfl
  | cons m rest ih =>
      rw [checkAll, ih]
      rfl

private theorem checkProperties_eq_gather (path : List String) (guard : Guard)
    (properties : List PropertyCheck) (entries : List (String × Json)) :
    validator.checkProperties path guard properties entries =
      gather (properties.map fun property =>
        match Json.field? entries property.key with
        | some value =>
            validator.check (propertyPath path property.key) guard none property.slot value
        | none => .ok (absence path property)) := by
  induction properties with
  | nil =>
      rw [checkProperties]
      rfl
  | cons property rest ih =>
      rw [checkProperties, ih, List.map_cons, gather]
      split <;> simp_all [bind, Except.bind]

theorem run_eq_answer (call : Call) :
    validator.run call = call.answer id validator.checks validator.run := by
  obtain ⟨path, guard, widened, slot, value⟩ := call
  rw [run, check, Call.answer]
  simp only
  split <;> rename_i hcheck <;> simp only [hcheck]
  · cases value with
    | array items => exact checkItems_eq_gather validator path guard _ 0 items
    | _ => rfl
  · cases value with
    | array items =>
        simp only
        rw [checkTuple_eq_gather]
        rfl
    | _ => rfl
  · rw [acceptsAny_eq_anyEmpty]
    rfl
  · exact checkAll_eq_gather validator path guard _ _ value
  · cases value with
    | object entries =>
        simp only [checkProperties_eq_gather]
        cases guard.enter slot <;> rfl
    | _ => rfl

end Validator

/-- `call` makes the call `next`. A member of a union is called once all before it are rejected. -/
inductive Call.Makes (checks : List Check) (rejected : Call → Prop) (call : Call) : Call → Prop
  | item {element : Slot} {items : List Json} {i : Nat} {item : Json}
      (hcheck : checks[call.slot]? = some (.array element)) (hvalue : call.value = .array items)
      (hitem : items[i]? = some item) : Makes checks rejected call (call.item element i item)
  | position {elements : List Slot} {rendered : String} {items : List Json} {i : Nat}
      {element : Slot} {item : Json}
      (hcheck : checks[call.slot]? = some (.tuple elements rendered))
      (hvalue : call.value = .array items) (hlength : items.length = elements.length)
      (helement : elements[i]? = some element) (hitem : items[i]? = some item) :
      Makes checks rejected call (call.item element i item)
  | member {tried rest : List Slot} {m : Slot} {possibilities : String}
      (hcheck : checks[call.slot]? = some (.union (tried ++ m :: rest) possibilities))
      (hrejected : ∀ t ∈ tried, rejected (call.member t)) :
      Makes checks rejected call (call.member m)
  | part {members : List Slot} {declared : List String} {m : Slot}
      (hcheck : checks[call.slot]? = some (.intersection members declared)) (hm : m ∈ members) :
      Makes checks rejected call (call.part declared m)
  | field {name : String} {properties : List PropertyCheck} {entries : List (String × Json)}
      {inner : Guard} {property : PropertyCheck} {value : Json}
      (hcheck : checks[call.slot]? = some (.object name properties))
      (hvalue : call.value = .object entries) (henter : call.guard.enter call.slot = .ok inner)
      (hproperty : property ∈ properties)
      (hfield : Json.field? entries property.key = some value) :
      Makes checks rejected call (call.field name inner property value)

abbrev Call.MayMake (checks : List Check) (call next : Call) : Prop :=
  call.Makes checks (fun _ => True) next

namespace Call

variable {checks : List Check} {call next : Call}

theorem mayMake_item {element : Slot} {items : List Json} {entry : Json × Nat}
    (hcheck : checks[call.slot]? = some (.array element)) (hvalue : call.value = .array items)
    (h : entry ∈ items.zipIdx) : call.MayMake checks (call.item element entry.2 entry.1) :=
  .item hcheck hvalue (List.mem_zipIdx_iff_getElem?.mp h)

theorem mayMake_position {elements : List Slot} {rendered : String} {items : List Json}
    {entry : (Slot × Json) × Nat} (hcheck : checks[call.slot]? = some (.tuple elements rendered))
    (hvalue : call.value = .array items) (hlength : items.length = elements.length)
    (h : entry ∈ (elements.zip items).zipIdx) :
    call.MayMake checks (call.item entry.1.1 entry.2 entry.1.2) := by
  obtain ⟨helement, hitem⟩ := List.getElem?_zip_eq_some.mp (List.mem_zipIdx_iff_getElem?.mp h)
  exact .position hcheck hvalue hlength helement hitem

theorem mayMake_member {members : List Slot} {m : Slot} {possibilities : String}
    (hcheck : checks[call.slot]? = some (.union members possibilities)) (h : m ∈ members) :
    call.MayMake checks (call.member m) := by
  obtain ⟨tried, rest, rfl⟩ := List.append_of_mem h
  exact .member hcheck fun _ _ => trivial

theorem Makes.mono {rejected rejected' : Call → Prop} (h : call.Makes checks rejected next)
    (weaker : ∀ tried, call.MayMake checks tried → rejected tried → rejected' tried) :
    call.Makes checks rejected' next := by
  cases h with
  | item hcheck hvalue hitem => exact .item hcheck hvalue hitem
  | position hcheck hvalue hlength helement hitem =>
      exact .position hcheck hvalue hlength helement hitem
  | member hcheck hrejected =>
      refine .member hcheck fun t ht => weaker _ ?_ (hrejected t ht)
      exact mayMake_member hcheck (List.mem_append_left _ ht)
  | part hcheck hm => exact .part hcheck hm
  | field hcheck hvalue henter hproperty hfield =>
      exact .field hcheck hvalue henter hproperty hfield

theorem Makes.mayMake {rejected : Call → Prop} (h : call.Makes checks rejected next) :
    call.MayMake checks next :=
  h.mono fun _ _ _ => trivial

theorem MayMake.descends (h : call.MayMake checks next) :
    next.value.IsPart call.value ∨
      next.value = call.value ∧
        ∃ check, checks[call.slot]? = some check ∧ next.slot ∈ check.combined := by
  cases h with
  | item hcheck hvalue hitem =>
      left
      rw [hvalue]
      exact .item (List.mem_of_getElem? hitem)
  | position hcheck hvalue hlength helement hitem =>
      left
      rw [hvalue]
      exact .item (List.mem_of_getElem? hitem)
  | member hcheck _ => exact .inr ⟨rfl, _, hcheck, by simp [Call.member, Check.combined]⟩
  | part hcheck hm => exact .inr ⟨rfl, _, hcheck, hm⟩
  | field hcheck hvalue henter hproperty hfield =>
      left
      rw [hvalue]
      exact .field (Json.mem_of_field? hfield)

end Call

namespace Validator

theorem call_induction (validator : Validator) {motive : Call → Prop}
    (step : ∀ call, (∀ next, call.MayMake validator.checks next → motive next) → motive call)
    (call : Call) : motive call :=
  step call fun next _ => validator.call_induction step next
termination_by (call.value.depth, validator.rank call.slot)
decreasing_by
  rename_i hnext
  rcases hnext.descends with hpart | ⟨hvalue, check, hcheck, hm⟩
  · exact Prod.Lex.left _ _ hpart.depth_lt
  · rw [hvalue]
    exact Prod.Lex.right _ (rank_lt_rank hcheck hm)

end Validator
end Conform
