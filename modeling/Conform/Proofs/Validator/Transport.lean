import Conform.Proofs.Validator.Answers

/-!
Runs on checks that are numbered in another way, at another path. The guards need not be the same as
long as they let the same objects in; what is found is the same, moved to the other path.
-/

namespace Conform

namespace Mismatch

def remark (mismatch : Mismatch) : String :=
  String.ofList (mismatch.message.toList.drop (pathText mismatch.path).length)

def rebase (base : List String) (mismatch : Mismatch) : Mismatch :=
  saying (base ++ mismatch.path.tail) mismatch.kind mismatch.remark

@[simp] theorem remark_saying (path : List String) (kind : MismatchKind) (text : String) :
    (saying path kind text).remark = text := by
  simp [saying, remark, String.toList_append, ← String.length_toList]

@[simp] theorem rebase_saying (base rest : List String) (kind : MismatchKind) (text : String) :
    rebase base (saying (rootPath ++ rest) kind text) = saying (base ++ rest) kind text := by
  rw [rebase, remark_saying]
  rfl

end Mismatch

def PropertyCheck.renumber (number : Slot → Slot) (property : PropertyCheck) : PropertyCheck :=
  { property with slot := number property.slot }

def Check.renumber (number : Slot → Slot) : Check → Check
  | .valueType kind => .valueType kind
  | .literal value rendered => .literal value rendered
  | .object name properties => .object name (properties.map (·.renumber number))
  | .array element => .array (number element)
  | .tuple elements rendered => .tuple (elements.map number) rendered
  | .union members possibilities => .union (members.map number) possibilities
  | .intersection members declared => .intersection (members.map number) declared
  | .enum name values listed => .enum name values listed

section Results

variable {ε α β : Type}

theorem gather_map (f : α → β) (results : List (Except ε (List α))) :
    (gather results).map (List.map f) = gather (results.map (·.map (List.map f))) := by
  induction results with
  | nil => rfl
  | cons first rest ih =>
      rw [List.map_cons, gather, gather, ← ih]
      cases first with
      | error fault => rfl
      | ok found =>
          cases gather rest with
          | error fault => rfl
          | ok more => exact congrArg Except.ok List.map_append

theorem anyEmpty_map (f : α → β) (results : List (Except ε (List α))) :
    anyEmpty (results.map (·.map (List.map f))) = anyEmpty results := by
  induction results with
  | nil => rfl
  | cons first rest ih =>
      rw [List.map_cons, anyEmpty, anyEmpty, ih]
      cases first with
      | error fault => rfl
      | ok found => cases found <;> rfl

end Results

/-- Entering an object comes to the same with both guards: to the same fault, or to guards that are
alike again. -/
inductive Guard.EnterAlike (alike : Guard → Guard → Prop) :
    Except LimitReached Guard → Except LimitReached Guard → Prop
  | reached (reached : LimitReached) : EnterAlike alike (.error reached) (.error reached)
  | entered {inner inner' : Guard} (h : alike inner inner') :
      EnterAlike alike (.ok inner) (.ok inner')

/-- `moved` is the same call on checks with other numbers, at a path that goes on from `base` as the
path of `call` goes on from the root. -/
structure Call.Moves (number : Slot → Slot) (alike : Guard → Guard → Prop) (base : List String)
    (call moved : Call) : Prop where
  path : ∃ rest, call.path = rootPath ++ rest ∧ moved.path = base ++ rest
  guard : alike call.guard moved.guard
  widened : moved.widened = call.widened
  slot : moved.slot = number call.slot
  value : moved.value = call.value

namespace Call

variable {number : Slot → Slot} {alike : Guard → Guard → Prop} {base : List String}
  {call moved : Call}

theorem Moves.single (h : call.Moves number alike base moved) (kind : MismatchKind)
    (text : String) :
    [Mismatch.saying moved.path kind text] =
      [Mismatch.saying call.path kind text].map (Mismatch.rebase base) := by
  obtain ⟨rest, hpath, hmoved⟩ := h.path
  rw [hpath, hmoved, List.map_singleton, Mismatch.rebase_saying]

theorem Moves.item (h : call.Moves number alike base moved) (element : Slot) (i : Nat)
    (item : Json) :
    (call.item element i item).Moves number alike base (moved.item (number element) i item) := by
  obtain ⟨rest, hpath, hmoved⟩ := h.path
  refine ⟨⟨elementPath rest i, ?_, ?_⟩, h.guard, rfl, rfl, rfl⟩
  · simp [Call.item, elementPath, hpath]
  · simp [Call.item, elementPath, hmoved]

theorem Moves.member (h : call.Moves number alike base moved) (m : Slot) :
    (call.member m).Moves number alike base (moved.member (number m)) :=
  ⟨h.path, h.guard, h.widened, rfl, h.value⟩

theorem Moves.part (h : call.Moves number alike base moved) (declared : List String) (m : Slot) :
    (call.part declared m).Moves number alike base (moved.part declared (number m)) := by
  refine ⟨h.path, h.guard, ?_, rfl, h.value⟩
  rw [Call.part, Call.part, h.widened]

theorem Moves.field (h : call.Moves number alike base moved) (name : String) {inner inner' : Guard}
    (inside : alike inner inner') (property : PropertyCheck) (value : Json) :
    (call.field name inner property value).Moves number alike base
      (moved.field name inner' (property.renumber number) value) := by
  obtain ⟨rest, hpath, hmoved⟩ := h.path
  refine ⟨⟨propertyPath (objectPath rest name) property.key, ?_, ?_⟩, inside, rfl, rfl, rfl⟩
  · simp [Call.field, propertyPath, objectPath, hpath]
  · simp [Call.field, propertyPath, objectPath, hmoved, PropertyCheck.renumber]

end Call

theorem map_rebase_absence (base rest : List String) (number : Slot → Slot)
    (property : PropertyCheck) :
    absence (base ++ rest) (property.renumber number) =
      (absence (rootPath ++ rest) property).map (Mismatch.rebase base) := by
  rw [absence, absence, PropertyCheck.renumber]
  cases property.isOptional with
  | true => rfl
  | false => simp [propertyPath]

theorem map_rebase_unknownKeys (base rest : List String) (name : String) (number : Slot → Slot)
    (properties : List PropertyCheck) (widened : List String) (entries : List (String × Json)) :
    unknownKeys (base ++ rest) name (properties.map (·.renumber number)) widened entries =
      (unknownKeys (rootPath ++ rest) name properties widened entries).map
        (Mismatch.rebase base) := by
  have sameKeys : ∀ key, (properties.map (·.renumber number)).any (·.key == key) =
      properties.any (·.key == key) := by
    intro key
    rw [List.any_map]
    rfl
  simp only [unknownKeys, sameKeys, List.map_map]
  refine List.map_congr_left fun entry _ => ?_
  simp

namespace Call

variable {ε : Type} {abort : LimitReached → ε} {checks others : List Check} {number : Slot → Slot}
  {alike : Guard → Guard → Prop} {base : List String} {call moved : Call}
  {recur recur' : Call → Except ε (List Mismatch)}

private theorem answer_tuple_of_moves (moves : call.Moves number alike base moved)
    {elements : List Slot} {rendered : String}
    (hcheck : checks[call.slot]? = some (.tuple elements rendered))
    (hother : others[moved.slot]? = some (.tuple (elements.map number) rendered))
    (below : ∀ next next', call.MayMake checks next → next.Moves number alike base next' →
      recur' next' = (recur next).map (List.map (Mismatch.rebase base))) :
    moved.answer abort others recur' =
      (call.answer abort checks recur).map (List.map (Mismatch.rebase base)) := by
  rw [answer, answer, hcheck, hother, moves.value]
  simp only [moves.single, List.length_map]
  cases hvalue : call.value with
  | array items =>
      simp only
      split
      · rename_i hlength
        have zipped : ((elements.map number).zip items).zipIdx =
            (elements.zip items).zipIdx.map fun entry =>
              ((number entry.1.1, entry.1.2), entry.2) := by
          rw [List.zip_map_left, List.zipIdx_map]
          rfl
        rw [zipped, gather_map, List.map_map, List.map_map]
        refine congrArg gather (List.map_congr_left fun entry hentry => ?_)
        exact below _ _ (mayMake_position hcheck hvalue hlength hentry) (moves.item _ _ _)
      · rfl
  | _ => rfl

private theorem answer_union_of_moves (moves : call.Moves number alike base moved)
    {members : List Slot} {possibilities : String}
    (hcheck : checks[call.slot]? = some (.union members possibilities))
    (hother : others[moved.slot]? = some (.union (members.map number) possibilities))
    (below : ∀ next next', call.MayMake checks next → next.Moves number alike base next' →
      recur' next' = (recur next).map (List.map (Mismatch.rebase base))) :
    moved.answer abort others recur' =
      (call.answer abort checks recur).map (List.map (Mismatch.rebase base)) := by
  have same : anyEmpty ((members.map number).map fun m => recur' (moved.member m)) =
      anyEmpty (members.map fun m => recur (call.member m)) := by
    rw [← anyEmpty_map (Mismatch.rebase base) (members.map fun m => recur (call.member m)),
      List.map_map, List.map_map]
    refine congrArg anyEmpty (List.map_congr_left fun m hm => ?_)
    exact below _ _ (mayMake_member hcheck hm) (moves.member m)
  rw [answer, answer, hcheck, hother]
  simp only [moves.single, same]
  cases anyEmpty (members.map fun m => recur (call.member m)) with
  | error fault => rfl
  | ok accepted => cases accepted <;> rfl

private theorem ofProperty_of_moves (moves : call.Moves number alike base moved) {name : String}
    {inner inner' : Guard} {entries : List (String × Json)} {property : PropertyCheck}
    (below : ∀ value, Json.field? entries property.key = some value →
      recur' (moved.field name inner' (property.renumber number) value) =
        (recur (call.field name inner property value)).map (List.map (Mismatch.rebase base))) :
    moved.ofProperty recur' name inner' entries (property.renumber number) =
      (call.ofProperty recur name inner entries property).map
        (List.map (Mismatch.rebase base)) := by
  obtain ⟨rest, hpath, hmoved⟩ := moves.path
  have sameKey : (property.renumber number).key = property.key := rfl
  simp only [ofProperty, sameKey]
  cases hfield : Json.field? entries property.key with
  | some value => exact below value hfield
  | none =>
      refine congrArg Except.ok ?_
      rw [hpath, hmoved, objectPath, List.append_assoc, map_rebase_absence, objectPath,
        List.append_assoc]

private theorem answer_object_of_moves (moves : call.Moves number alike base moved) {name : String}
    {properties : List PropertyCheck}
    (hcheck : checks[call.slot]? = some (.object name properties))
    (hother : others[moved.slot]? = some (.object name (properties.map (·.renumber number))))
    (enters : Guard.EnterAlike alike (call.guard.enter call.slot) (moved.guard.enter moved.slot))
    (below : ∀ next next', call.MayMake checks next → next.Moves number alike base next' →
      recur' next' = (recur next).map (List.map (Mismatch.rebase base))) :
    moved.answer abort others recur' =
      (call.answer abort checks recur).map (List.map (Mismatch.rebase base)) := by
  rw [answer, answer, hcheck, hother, moves.value]
  simp only [moves.single]
  cases hvalue : call.value with
  | object entries =>
      generalize henter : call.guard.enter call.slot = entered at enters
      generalize moved.guard.enter moved.slot = entered' at enters
      cases enters with
      | reached reached => rfl
      | @entered inner inner' inside =>
          -- Both guards let the object in; its fields are compared under the inner ones.
          have same : (properties.map (·.renumber number)).map
                (moved.ofProperty recur' name inner' entries) =
              (properties.map (call.ofProperty recur name inner entries)).map
                (·.map (List.map (Mismatch.rebase base))) := by
            rw [List.map_map, List.map_map]
            refine List.map_congr_left fun property hproperty => ?_
            exact ofProperty_of_moves moves fun value hfield =>
              below _ _ (.field hcheck hvalue henter hproperty hfield)
                (moves.field name inside property value)
          obtain ⟨rest, hpath, hmoved⟩ := moves.path
          change gather _ >>= _ = Except.map _ (gather _ >>= _)
          rw [same, ← gather_map, hpath, hmoved, moves.widened]
          cases gather (properties.map (call.ofProperty recur name inner entries)) with
          | error fault => rfl
          | ok found =>
              refine congrArg Except.ok ?_
              rw [List.map_append, objectPath, List.append_assoc, map_rebase_unknownKeys,
                objectPath, List.append_assoc]
  | _ => rfl

theorem answer_of_moves (moves : call.Moves number alike base moved)
    (renumbers : others[number call.slot]? = checks[call.slot]?.map (Check.renumber number))
    (enters : ∀ check, checks[call.slot]? = some check →
      Guard.EnterAlike alike (call.guard.enter call.slot) (moved.guard.enter moved.slot))
    (below : ∀ next next', call.MayMake checks next → next.Moves number alike base next' →
      recur' next' = (recur next).map (List.map (Mismatch.rebase base))) :
    moved.answer abort others recur' =
      (call.answer abort checks recur).map (List.map (Mismatch.rebase base)) := by
  rw [← moves.slot] at renumbers
  cases hcheck : checks[call.slot]? with
  | none =>
      rw [hcheck] at renumbers
      rw [answer, answer, hcheck, renumbers]
      rfl
  | some check =>
      rw [hcheck] at renumbers
      cases check with
      | valueType kind =>
          rw [answer, answer, hcheck, renumbers, moves.value]
          simp only [Option.map_some, Check.renumber, moves.single]
          split <;> rfl
      | literal expected rendered =>
          rw [answer, answer, hcheck, renumbers, moves.value]
          simp only [Option.map_some, Check.renumber, moves.single]
          split <;> rfl
      | enum name values listed =>
          rw [answer, answer, hcheck, renumbers, moves.value]
          simp only [Option.map_some, Check.renumber, moves.single]
          split <;> rfl
      | array element =>
          rw [answer, answer, hcheck, renumbers, moves.value]
          simp only [Option.map_some, Check.renumber, moves.single]
          cases hvalue : call.value with
          | array items =>
              simp only [gather_map, List.map_map]
              refine congrArg gather (List.map_congr_left fun entry hentry => ?_)
              exact below _ _ (mayMake_item hcheck hvalue hentry) (moves.item _ _ _)
          | _ => rfl
      | tuple elements rendered => exact answer_tuple_of_moves moves hcheck renumbers below
      | union members possibilities => exact answer_union_of_moves moves hcheck renumbers below
      | intersection members declared =>
          rw [answer, answer, hcheck, renumbers]
          simp only [Option.map_some, Check.renumber, gather_map, List.map_map]
          refine congrArg gather (List.map_congr_left fun m hm => ?_)
          exact below _ _ (.part hcheck hm) (moves.part declared m)
      | object name properties =>
          exact answer_object_of_moves moves hcheck renumbers (enters _ hcheck) below

end Call

namespace Validator

variable {number : Slot → Slot} {alike : Guard → Guard → Prop} {base : List String}

/-- A validator whose checks are those of another, with other numbers, finds the same, moved to the
other path. -/
theorem run_of_moves {validator other : Validator}
    (renumbers : ∀ slot, other.checks[number slot]? =
      validator.checks[slot]?.map (Check.renumber number))
    (enters : ∀ guard guard' slot check, validator.checks[slot]? = some check →
      alike guard guard' →
        Guard.EnterAlike alike (guard.enter slot) (guard'.enter (number slot)))
    {call moved : Call} (moves : call.Moves number alike base moved) :
    other.run moved = (validator.run call).map (List.map (Mismatch.rebase base)) := by
  induction call using validator.call_induction generalizing moved with
  | step call ih =>
      rw [run_eq_answer, run_eq_answer]
      refine Call.answer_of_moves moves (renumbers call.slot) (fun check hcheck => ?_)
        fun next next' hnext => ih next hnext
      rw [moves.slot]
      exact enters _ _ _ check hcheck moves.guard

end Validator
end Conform
