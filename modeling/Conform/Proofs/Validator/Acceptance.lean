import Conform.Proofs.Schema.Matching
import Conform.Proofs.Validator.Compilation
import Conform.Proofs.Validator.Limit

namespace Conform

section Results

variable {ε α : Type}

theorem gather_eq_ok_nil_iff {results : List (Except ε (List α))} :
    gather results = .ok [] ↔ ∀ result ∈ results, result = .ok [] := by
  induction results with
  | nil => simp [gather]
  | cons first rest ih =>
      rw [List.forall_mem_cons, ← ih, gather]
      cases first with
      | error fault => simp [bind, Except.bind]
      | ok found =>
          cases gather rest with
          | error fault => simp [bind, Except.bind]
          | ok more => simp [bind, Except.bind, pure, Except.pure]

theorem anyEmpty_eq_ok_true_iff {results : List (Except ε (List α))}
    (outcome : ∀ result ∈ results, ∃ found, result = .ok found) :
    anyEmpty results = .ok true ↔ .ok [] ∈ results := by
  induction results with
  | nil => simp [anyEmpty]
  | cons first rest ih =>
      obtain ⟨⟨found, rfl⟩, hrest⟩ := List.forall_mem_cons.mp outcome
      rw [List.mem_cons, ← ih hrest, anyEmpty]
      cases found with
      | nil => simp [bind, Except.bind, pure, Except.pure]
      | cons mismatch found => simp [bind, Except.bind]

end Results

theorem absence_eq_nil_iff {path : List String} {property : PropertyCheck} :
    absence path property = [] ↔ property.isOptional := by
  rw [absence]
  split <;> simp_all

theorem unknownKeys_eq_nil_iff (path : List String) (name : String)
    {properties : List PropertyCheck} {widened : List String} {entries : List (String × Json)} :
    unknownKeys path name properties widened entries = [] ↔
      ∀ key value, (key, value) ∈ entries →
        (∃ property ∈ properties, property.key = key) ∨ key ∈ widened := by
  rw [unknownKeys, List.map_eq_nil_iff, List.filter_eq_nil_iff, Prod.forall]
  refine forall_congr' fun key => forall_congr' fun value => imp_congr_right fun _ => ?_
  simp only [Bool.and_eq_true, Bool.not_eq_true', List.any_eq_false, decide_eq_true_eq, beq_iff_eq,
    not_and_or, not_forall, not_not, exists_prop]

namespace Call

variable {ε : Type} {abort : LimitReached → ε} {checks : List Check} {call : Call}
  {recur : Call → Except ε (List Mismatch)}

theorem answer_array_eq_ok_nil_iff {element : Slot}
    (hcheck : checks[call.slot]? = some (.array element)) :
    call.answer abort checks recur = .ok [] ↔ ∃ items, call.value = .array items ∧
      ∀ i item, items[i]? = some item → recur (call.item element i item) = .ok [] := by
  rw [answer, hcheck]
  cases hvalue : call.value with
  | array items =>
      simp only [gather_eq_ok_nil_iff, List.forall_mem_map, Prod.forall,
        List.mem_zipIdx_iff_getElem?, Json.array.injEq, exists_eq_left']
      exact forall_comm
  | _ => simp

theorem answer_tuple_eq_ok_nil_iff {elements : List Slot} {rendered : String}
    (hcheck : checks[call.slot]? = some (.tuple elements rendered)) :
    call.answer abort checks recur = .ok [] ↔ ∃ items, call.value = .array items ∧
      items.length = elements.length ∧ ∀ (i : Nat) element item, elements[i]? = some element →
        items[i]? = some item → recur (call.item element i item) = .ok [] := by
  rw [answer, hcheck]
  cases hvalue : call.value with
  | array items =>
      by_cases sameLength : items.length = elements.length
      · simp only [sameLength, ↓reduceIte, gather_eq_ok_nil_iff, List.forall_mem_map, Prod.forall,
          List.mem_zipIdx_iff_getElem?, List.getElem?_zip_eq_some, Json.array.injEq,
          exists_eq_left', true_and, and_imp]
        exact ⟨fun h i element item => h element item i, fun h element item i => h i element item⟩
      · simp [sameLength]
  | _ => simp

theorem answer_union_eq_ok_nil_iff {members : List Slot} {possibilities : String}
    (hcheck : checks[call.slot]? = some (.union members possibilities))
    (outcome : ∀ m ∈ members, ∃ found, recur (call.member m) = .ok found) :
    call.answer abort checks recur = .ok [] ↔
      ∃ m ∈ members, recur (call.member m) = .ok [] := by
  rw [answer, hcheck, ← List.mem_map, ← anyEmpty_eq_ok_true_iff (List.forall_mem_map.mpr outcome)]
  change (anyEmpty _ >>= _) = _ ↔ _
  cases anyEmpty (members.map fun m => recur (call.member m)) with
  | error fault => simp [bind, Except.bind]
  | ok accepted => cases accepted <;> simp [bind, Except.bind, pure, Except.pure]

theorem answer_intersection_eq_ok_nil_iff {members : List Slot} {declared : List String}
    (hcheck : checks[call.slot]? = some (.intersection members declared)) :
    call.answer abort checks recur = .ok [] ↔
      ∀ m ∈ members, recur (call.part declared m) = .ok [] := by
  rw [answer, hcheck]
  exact gather_eq_ok_nil_iff.trans List.forall_mem_map

theorem ofProperty_eq_ok_nil_iff {name : String} {inner : Guard} {entries : List (String × Json)}
    {property : PropertyCheck} :
    call.ofProperty recur name inner entries property = .ok [] ↔
      (∀ value, Json.field? entries property.key = some value →
        recur (call.field name inner property value) = .ok []) ∧
      (Json.field? entries property.key = none → property.isOptional) := by
  rw [ofProperty]
  cases Json.field? entries property.key <;> simp [absence_eq_nil_iff]

theorem answer_object_eq_ok_nil_iff {name : String} {properties : List PropertyCheck}
    {inner : Guard} (hcheck : checks[call.slot]? = some (.object name properties))
    (henter : call.guard.enter call.slot = .ok inner) :
    call.answer abort checks recur = .ok [] ↔ ∃ entries, call.value = .object entries ∧
      (∀ property ∈ properties, ∀ value, Json.field? entries property.key = some value →
        recur (call.field name inner property value) = .ok []) ∧
      (∀ property ∈ properties, Json.field? entries property.key = none → property.isOptional) ∧
      ∀ key value, (key, value) ∈ entries →
        (∃ property ∈ properties, property.key = key) ∨ key ∈ call.widened.getD [] := by
  rw [answer, hcheck]
  cases hvalue : call.value with
  | object entries =>
      have properties_iff :
          gather (properties.map (call.ofProperty recur name inner entries)) = .ok [] ↔
            (∀ property ∈ properties, ∀ value, Json.field? entries property.key = some value →
              recur (call.field name inner property value) = .ok []) ∧
            ∀ property ∈ properties, Json.field? entries property.key = none →
              property.isOptional := by
        rw [gather_eq_ok_nil_iff, List.forall_mem_map]
        simp only [ofProperty_eq_ok_nil_iff, imp_and, forall_and]
      simp only [Json.object.injEq, exists_eq_left', henter]
      rw [← and_assoc, ← properties_iff, ← unknownKeys_eq_nil_iff (objectPath call.path name) name]
      change (gather _ >>= _) = _ ↔ _
      cases gather (properties.map (call.ofProperty recur name inner entries)) with
      | error fault => simp [bind, Except.bind]
      | ok found => simp [bind, Except.bind, pure, Except.pure]
  | _ => simp

end Call

namespace Schema

variable {schema : Schema} {validator : Validator}

def keySet (widened : Option (List String)) : Option (Set String) :=
  widened.map fun keys => {key | key ∈ keys}

theorem mem_keySet_getD {widened : Option (List String)} {key : String} :
    key ∈ (keySet widened).getD ∅ ↔ key ∈ widened.getD [] := by
  cases widened with
  | none => simp [keySet]
  | some keys => rfl

theorem keySet_getD_declaredKeys {id : NodeId} {members : List NodeId}
    (hnode : schema.node? id = some (.intersection members)) (widened : Option (List String)) :
    keySet (some (widened.getD (schema.declaredKeys id members))) =
      some ((keySet widened).getD (schema.keysBelow id)) := by
  cases widened with
  | none => exact congrArg some (Set.ext fun key => mem_declaredKeys_iff hnode)
  | some keys => rfl

/-- The answers to the calls for the children of a node say whether the parts match them. -/
def AnswersMatch {ε : Type} (schema : Schema) (checks : List Check) (call : Call)
    (recur : Call → Except ε (List Mismatch)) (children : List NodeId) : Prop :=
  ∀ next child, call.MayMake checks next → child ∈ children →
    next.slot = schema.preorder.idxOf child →
    (recur next = .ok [] ↔ schema.Matches child (keySet next.widened) next.value)

section Answers

variable {ε : Type} {abort : LimitReached → ε} {checks : List Check} {call : Call}
  {recur : Call → Except ε (List Mismatch)} {id : NodeId}

private theorem answer_array_iff_fits {element : NodeId}
    (hcheck : checks[call.slot]? =
      some (Check.ofNode schema schema.preorder id (.array element)))
    (below : schema.AnswersMatch checks call recur [element]) :
    call.answer abort checks recur = .ok [] ↔
      schema.Fits schema.Matches id (keySet call.widened) call.value (.array element) := by
  rw [Call.answer_array_eq_ok_nil_iff hcheck, Fits]
  refine exists_congr fun items => and_congr_right fun hvalue => ?_
  have here : ∀ (i : Nat) item, items[i]? = some item →
      (recur (call.item (schema.preorder.idxOf element) i item) = .ok [] ↔
        schema.Matches element none item) :=
    fun i item hitem => below _ element (.item hcheck hvalue hitem) List.mem_cons_self rfl
  constructor
  · intro h item hitem
    obtain ⟨i, hi⟩ := List.mem_iff_getElem?.mp hitem
    exact (here i item hi).mp (h i item hi)
  · intro h i item hi
    exact (here i item hi).mpr (h item (List.mem_of_getElem? hi))

private theorem answer_tuple_iff_fits {elements : List NodeId}
    (hcheck : checks[call.slot]? =
      some (Check.ofNode schema schema.preorder id (.tuple elements)))
    (below : schema.AnswersMatch checks call recur elements) :
    call.answer abort checks recur = .ok [] ↔
      schema.Fits schema.Matches id (keySet call.widened) call.value (.tuple elements) := by
  rw [Call.answer_tuple_eq_ok_nil_iff hcheck, Fits]
  refine exists_congr fun items => and_congr_right fun hvalue => ?_
  rw [List.length_map]
  refine and_congr_right fun hlength => ?_
  have image : ∀ {i : Nat} {element}, elements[i]? = some element →
      (elements.map schema.preorder.idxOf)[i]? = some (schema.preorder.idxOf element) :=
    fun h => by rw [List.getElem?_map, h, Option.map_some]
  have here : ∀ (i : Nat) element item, elements[i]? = some element → items[i]? = some item →
      (recur (call.item (schema.preorder.idxOf element) i item) = .ok [] ↔
        schema.Matches element none item) := by
    intro i element item helement hitem
    refine below _ element ?_ (List.mem_of_getElem? helement) rfl
    exact .position hcheck hvalue (by rw [List.length_map, hlength]) (image helement) hitem
  constructor
  · intro h i element item helement hitem
    exact (here i element item helement hitem).mp (h i _ item (image helement) hitem)
  · intro h i slot item hslot hitem
    rw [List.getElem?_map, Option.map_eq_some_iff] at hslot
    obtain ⟨element, helement, rfl⟩ := hslot
    exact (here i element item helement hitem).mpr (h i element item helement hitem)

private theorem answer_union_iff_fits {members : List NodeId}
    (hcheck : checks[call.slot]? =
      some (Check.ofNode schema schema.preorder id (.union members)))
    (outcome : ∀ next, call.MayMake checks next → ∃ found, recur next = .ok found)
    (below : schema.AnswersMatch checks call recur members) :
    call.answer abort checks recur = .ok [] ↔
      schema.Fits schema.Matches id (keySet call.widened) call.value (.union members) := by
  have made : ∀ m ∈ members, call.MayMake checks (call.member (schema.preorder.idxOf m)) :=
    fun m hm => Call.mayMake_member hcheck (List.mem_map_of_mem hm)
  have answered : ∀ slot ∈ members.map schema.preorder.idxOf,
      ∃ found, recur (call.member slot) = .ok found :=
    List.forall_mem_map.mpr fun m hm => outcome _ (made m hm)
  rw [Call.answer_union_eq_ok_nil_iff hcheck answered, Fits]
  simp only [List.mem_map, exists_exists_and_eq_and]
  exact exists_congr fun m => and_congr_right fun hm => below _ m (made m hm) hm rfl

private theorem answer_intersection_iff_fits {members : List NodeId}
    (hnode : schema.node? id = some (.intersection members))
    (hcheck : checks[call.slot]? =
      some (Check.ofNode schema schema.preorder id (.intersection members)))
    (below : schema.AnswersMatch checks call recur members) :
    call.answer abort checks recur = .ok [] ↔
      schema.Fits schema.Matches id (keySet call.widened) call.value (.intersection members) := by
  rw [Call.answer_intersection_eq_ok_nil_iff hcheck, Fits, List.forall_mem_map,
    ← keySet_getD_declaredKeys hnode]
  refine forall_congr' fun m => forall_congr' fun hm => ?_
  exact below _ m (.part hcheck (List.mem_map_of_mem hm)) hm rfl

private theorem answer_object_iff_fits {name : String} {properties : List (String × Property)}
    {inner : Guard} (henter : call.guard.enter call.slot = .ok inner)
    (hcheck : checks[call.slot]? =
      some (Check.ofNode schema schema.preorder id (.object name properties)))
    (below : schema.AnswersMatch checks call recur (properties.map (·.2.definition))) :
    call.answer abort checks recur = .ok [] ↔
      schema.Fits schema.Matches id (keySet call.widened) call.value (.object name properties) := by
  rw [Call.answer_object_eq_ok_nil_iff hcheck henter, Fits]
  refine exists_congr fun entries => and_congr_right fun hvalue => ?_
  simp only [List.forall_mem_map, Prod.forall, mem_keySet_getD]
  refine and_congr ?_ (and_congr Iff.rfl ?_)
  · refine forall_congr' fun key => forall_congr' fun property => ?_
    have here : ∀ value, (key, property) ∈ properties → Json.field? entries key = some value →
        (recur (call.field name inner (schema.propertyCheck (key, property)
            (schema.preorder.idxOf property.definition)) value) = .ok [] ↔
          schema.Matches property.definition none value) := by
      intro value hproperty hfield
      have hentry := List.mem_map_of_mem
        (f := fun entry => schema.propertyCheck entry (schema.preorder.idxOf entry.2.definition))
        hproperty
      exact below _ property.definition (.field hcheck hvalue henter hentry hfield)
        (List.mem_map_of_mem hproperty) rfl
    constructor
    · intro h value hproperty hfield
      exact (here value hproperty hfield).mp (h hproperty value hfield)
    · intro h hproperty value hfield
      exact (here value hproperty hfield).mpr (h value hproperty hfield)
  · simp [propertyCheck]

theorem answer_iff_fits {inner : Guard} {node : Node} (hnode : schema.node? id = some node)
    (hcheck : checks[call.slot]? = some (Check.ofNode schema schema.preorder id node))
    (henter : call.guard.enter call.slot = .ok inner)
    (outcome : ∀ next, call.MayMake checks next → ∃ found, recur next = .ok found)
    (below : schema.AnswersMatch checks call recur node.children) :
    call.answer abort checks recur = .ok [] ↔
      schema.Fits schema.Matches id (keySet call.widened) call.value node := by
  cases node with
  | valueType kind =>
      rw [Call.answer, hcheck, Fits]
      simp only [Check.ofNode]
      split <;> simp_all
  | literal expected =>
      rw [Call.answer, hcheck, Fits]
      simp only [Check.ofNode]
      split <;> simp_all
  | enum name values =>
      rw [Call.answer, hcheck, Fits, ← List.any_eq_true]
      simp only [Check.ofNode]
      split <;> simp_all
  | array element => exact answer_array_iff_fits hcheck below
  | tuple elements => exact answer_tuple_iff_fits hcheck below
  | union members => exact answer_union_iff_fits hcheck outcome below
  | intersection members => exact answer_intersection_iff_fits hnode hcheck below
  | object name properties => exact answer_object_iff_fits henter hcheck below

end Answers

theorem run_eq_ok_nil_iff (compiled : schema.compile = .ok validator) (call : Call) {id : NodeId}
    (reached : schema.Reachable id) (hslot : call.slot = schema.preorder.idxOf id)
    (unlimited : call.guard.limit = 0) :
    validator.run call = .ok [] ↔ schema.Matches id (keySet call.widened) call.value := by
  induction call using validator.call_induction generalizing id with
  | step call ih =>
      obtain ⟨node, hnode, hcheck⟩ := exists_check_of_compile compiled reached
      rw [← hslot] at hcheck
      rw [Validator.run_eq_answer, matches_iff_of_node hnode]
      refine answer_iff_fits hnode hcheck (Guard.enter_eq_ok _ (.inl unlimited))
        (fun next hnext => validator.exists_run_eq_ok next (hnext.limit_eq_zero unlimited)) ?_
      intro next child hnext hchild hslot
      exact ih next hnext (reached.child (refers_of_node hnode hchild)) hslot
        (hnext.limit_eq_zero unlimited)

theorem accepts_iff_matches (compiled : schema.compile = .ok validator) {value : Json} :
    validator.validate value 0 = .ok [] ↔ schema.Matches schema.root none value := by
  obtain ⟨-, -, -, -, hroot, -⟩ := holds_images_of_compile compiled
  exact run_eq_ok_nil_iff compiled (.start validator.root value 0) (Reachable.root schema) hroot rfl

private theorem namedLinks_matches {entries : List (String × Json)} {name : String}
    {following : Json} (hkeys : entries.map (·.1) ⊆ ["name", "next"])
    (hname : Json.field? entries "name" = some (.string name))
    (hnext : Json.field? entries "next" = some following)
    (hfollowing : namedLinks.Matches ⟨3⟩ none following) :
    namedLinks.Matches ⟨0⟩ none (.object entries) := by
  have declaresNext : "next" ∈ namedLinks.keysBelow ⟨0⟩ :=
    ⟨⟨1⟩, .single ⟨_, rfl, List.mem_cons_self⟩, _, rfl, List.mem_cons_self⟩
  have declaresName : "name" ∈ namedLinks.keysBelow ⟨0⟩ :=
    ⟨⟨2⟩, .single ⟨_, rfl, List.mem_cons_of_mem _ List.mem_cons_self⟩, _, rfl, List.mem_cons_self⟩
  have known : ∀ key value, (key, value) ∈ entries → key ∈ namedLinks.keysBelow ⟨0⟩ := by
    intro key value hentry
    have hkey : key = "name" ∨ key = "next" := by simpa using hkeys (List.mem_map_of_mem hentry)
    rcases hkey with rfl | rfl
    · exact declaresName
    · exact declaresNext
  have link : namedLinks.Matches ⟨1⟩ (some (namedLinks.keysBelow ⟨0⟩)) (.object entries) := by
    refine .object rfl ?_ ?_ fun key value hentry => .inr (known key value hentry)
    · intro key property value hproperty hfield
      obtain ⟨rfl, rfl⟩ := Prod.mk.inj (List.mem_singleton.mp hproperty)
      obtain rfl := Option.some.inj (hnext.symm.trans hfield)
      exact hfollowing
    · simp
  have named : namedLinks.Matches ⟨2⟩ (some (namedLinks.keysBelow ⟨0⟩)) (.object entries) := by
    have isString : namedLinks.Matches ⟨4⟩ none (.string name) := .valueType rfl rfl
    refine .object rfl ?_ ?_ fun key value hentry => .inr (known key value hentry)
    · intro key property value hproperty hfield
      obtain ⟨rfl, rfl⟩ := Prod.mk.inj (List.mem_singleton.mp hproperty)
      obtain rfl := Option.some.inj (hname.symm.trans hfield)
      exact isString
    · simp [hname]
  exact .intersection rfl (List.forall_mem_cons.mpr ⟨link, List.forall_mem_singleton.mpr named⟩)

/-- Checking without a limit comes to an answer, and it finds nothing exactly in the values that
match the schema. -/
theorem validate_eq_ok_nil_iff (compiled : schema.compile = .ok validator) (value : Json) :
    (∃ found, validator.validate value 0 = .ok found) ∧
      (validator.validate value 0 = .ok [] ↔ schema.Matches schema.root none value) := by
  obtain ⟨-, done, -, -, hroot, -⟩ := holds_images_of_compile compiled
  constructor
  · exact validator.exists_run_eq_ok (.start validator.root value 0) rfl
  · exact run_eq_ok_nil_iff compiled (.start validator.root value 0) (Reachable.root schema) hroot
      rfl

theorem validate_namedLinks : ∃ validator, namedLinks.compile = .ok validator ∧
    validator.validate
      (.object [("name", .string "a"), ("next", .object [("next", .null), ("name", .string "b")])])
      0 = .ok [] := by
  obtain ⟨validator, compiled⟩ := namedLinks_compiles
  refine ⟨validator, compiled, (validate_eq_ok_nil_iff compiled _).2.mpr ?_⟩
  have last : namedLinks.Matches ⟨3⟩ none .null :=
    .union rfl List.mem_cons_self (.valueType rfl rfl)
  have second : namedLinks.Matches ⟨0⟩ none (.object [("next", .null), ("name", .string "b")]) :=
    namedLinks_matches (by simp) rfl rfl last
  have next : namedLinks.Matches ⟨3⟩ none (.object [("next", .null), ("name", .string "b")]) :=
    .union rfl (List.mem_cons_of_mem _ List.mem_cons_self) second
  exact namedLinks_matches (by simp) rfl rfl next

end Schema
end Conform
