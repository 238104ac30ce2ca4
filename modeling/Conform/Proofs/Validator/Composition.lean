import Conform.Proofs.Pointwise
import Conform.Proofs.Schema.Subschema
import Conform.Proofs.Validator.Limit
import Conform.Proofs.Validator.Numbering
import Conform.Proofs.Validator.Transport

/-!
The mismatches of a value are put together from those of its parts: every node below the root is the
root of a schema of its own, and what that schema finds in a part is found in the whole, at the path
that leads to the part.
-/

namespace Conform

open Relation

section Results

variable {α ε : Type}

theorem gather_map_ok (lists : List (List α)) :
    gather (lists.map (Except.ok (ε := ε))) = .ok lists.flatten := by
  induction lists with
  | nil => rfl
  | cons first rest ih =>
      rw [List.map_cons, gather, ih]
      rfl

theorem anyEmpty_map_ok [DecidableEq α] (lists : List (List α)) :
    anyEmpty (lists.map (Except.ok (ε := ε))) = .ok (decide ([] ∈ lists)) := by
  induction lists with
  | nil => rfl
  | cons first rest ih =>
      rw [List.map_cons, anyEmpty, ih]
      cases first with
      | nil => simp [bind, Except.bind, pure, Except.pure]
      | cons mismatch found => simp [bind, Except.bind]

end Results

def Guard.Unlimited (guard guard' : Guard) : Prop := guard.limit = 0 ∧ guard'.limit = 0

theorem Guard.Unlimited.enter {guard guard' : Guard} (h : guard.Unlimited guard')
    (slot slot' : Slot) :
    Guard.EnterAlike Guard.Unlimited (guard.enter slot) (guard'.enter slot') := by
  rw [Guard.enter_eq_ok _ (.inl h.1), Guard.enter_eq_ok _ (.inl h.2)]
  exact .entered ⟨(guard.after_limit slot).trans h.1, (guard'.after_limit slot').trans h.2⟩

namespace Schema

variable {schema : Schema} {validator : Validator} {id : NodeId}

theorem renumber_ofNode_rootedAt {start : NodeId} {order more : List NodeId} {node : Node}
    {number : Slot → Slot}
    (numbers : ∀ child ∈ node.children, number (order.idxOf child) = more.idxOf child) :
    (Check.ofNode (schema.rootedAt start) order id node).renumber number =
      Check.ofNode schema more id node := by
  have all : ∀ {ids : List NodeId}, ids ⊆ node.children →
      (ids.map order.idxOf).map number = ids.map more.idxOf := by
    intro ids hids
    rw [List.map_map]
    exact List.map_congr_left fun child hchild => numbers child (hids hchild)
  cases node with
  | valueType kind => rfl
  | literal value => rfl
  | enum name values => rfl
  | array element => exact congrArg Check.array (numbers element List.mem_cons_self)
  | tuple elements =>
      simp only [Check.ofNode, Check.renumber, render_rootedAt, all (List.Subset.refl elements)]
  | union members =>
      simp only [Check.ofNode, Check.renumber, render_rootedAt, all (List.Subset.refl members)]
  | intersection members =>
      simp only [Check.ofNode, Check.renumber, declaredKeys_rootedAt,
        all (List.Subset.refl members)]
  | object name properties =>
      simp only [Check.ofNode, Check.renumber, List.map_map]
      refine congrArg (Check.object name) (List.map_congr_left fun entry hentry => ?_)
      simp only [Function.comp_apply, PropertyCheck.renumber, propertyCheck, render_rootedAt,
        numbers _ (List.mem_map_of_mem hentry)]

theorem exists_compile_rootedAt (compiled : ∃ validator, schema.compile = .ok validator)
    (reached : schema.Reachable id) : ∃ part, (schema.rootedAt id).compile = .ok part := by
  obtain ⟨closed, acyclic⟩ := exists_validator_iff.mp compiled
  refine exists_validator_iff.mpr ⟨?_, ?_⟩
  · exact fun below hbelow => closed below (reached.of_rootedAt hbelow)
  · exact fun below hcycle => acyclic below ⟨reached.of_rootedAt hcycle.1, hcycle.2⟩

theorem run_eq_map_validate (compiled : schema.compile = .ok validator)
    (reached : schema.Reachable id) {part : Validator}
    (partCompiled : (schema.rootedAt id).compile = .ok part) (path : List String) {guard : Guard}
    (unlimited : guard.limit = 0) (value : Json) :
    validator.run ⟨path, guard, none, schema.preorder.idxOf id, value⟩ =
      (part.validate value 0).map (List.map (Mismatch.rebase path)) := by
  obtain ⟨-, -, -, -, hroot, -⟩ := holds_images_of_compile partCompiled
  -- Slots that the part does not have go to one that the whole does not have.
  let number : Slot → Slot := fun slot =>
    (schema.rootedAt id).preorder[slot]?.elim validator.slotCount schema.preorder.idxOf
  have number_idxOf : ∀ {child}, (schema.rootedAt id).Reachable child →
      number ((schema.rootedAt id).preorder.idxOf child) = schema.preorder.idxOf child := by
    intro child hchild
    simp only [number, getElem?_preorder_idxOf hchild, Option.elim_some]
  have renumbers : ∀ slot, validator.checks[number slot]? =
      part.checks[slot]?.map (Check.renumber number) := by
    intro slot
    cases hslot : (schema.rootedAt id).preorder[slot]? with
    | none =>
        have outside : part.checks.length ≤ slot := by
          rw [List.getElem?_eq_none_iff, ← slotCount_of_compile partCompiled] at hslot
          exact hslot
        rw [List.getElem?_eq_none outside]
        simp only [number, hslot, Option.elim_none, Option.map_none]
        exact List.getElem?_eq_none (Nat.le_refl _)
    | some child =>
        have hchild : (schema.rootedAt id).Reachable child :=
          mem_preorder_iff.mp (List.mem_of_getElem? hslot)
        obtain ⟨node, hnode, hcheck⟩ :=
          exists_check_of_compile compiled (reached.of_rootedAt hchild)
        obtain ⟨partNode, hpartNode, hpart⟩ := exists_check_of_compile partCompiled hchild
        obtain rfl : node = partNode := Option.some.inj (hnode.symm.trans hpartNode)
        obtain rfl : (schema.rootedAt id).preorder.idxOf child = slot :=
          idxOf_preorder_of_getElem? hslot
        rw [number_idxOf hchild, hcheck, hpart, Option.map_some, renumber_ofNode_rootedAt]
        exact fun below hbelow => number_idxOf (hchild.child (refers_of_node hpartNode hbelow))
  have moves : Call.Moves number Guard.Unlimited path (.start part.root value 0)
      ⟨path, guard, none, schema.preorder.idxOf id, value⟩ := by
    refine ⟨⟨[], rfl, (List.append_nil path).symm⟩, ⟨rfl, unlimited⟩, rfl, ?_, rfl⟩
    change _ = number part.root
    rw [hroot]
    exact (number_idxOf (Reachable.root _)).symm
  refine Validator.run_of_moves renumbers ?_ moves
  intro guard guard' slot check _ alike
  exact alike.enter slot (number slot)

def Finds (schema : Schema) (value : Json) (found : List Mismatch) : Prop :=
  ∃ validator, schema.compile = .ok validator ∧ validator.validate value 0 = .ok found

theorem exists_finds (compiled : schema.compile = .ok validator) (reached : schema.Reachable id)
    (value : Json) : ∃ found, (schema.rootedAt id).Finds value found ∧
      ∀ path guard, guard.limit = 0 →
        validator.run ⟨path, guard, none, schema.preorder.idxOf id, value⟩ =
          .ok (found.map (Mismatch.rebase path)) := by
  obtain ⟨part, partCompiled⟩ := exists_compile_rootedAt ⟨validator, compiled⟩ reached
  obtain ⟨found, hfound⟩ := part.exists_run_eq_ok (.start part.root value 0) rfl
  refine ⟨found, ⟨part, partCompiled, hfound⟩, fun path guard unlimited => ?_⟩
  rw [run_eq_map_validate compiled reached partCompiled path unlimited, Validator.validate_eq_run,
    hfound]
  rfl

def atPositions (lists : List (List Mismatch)) : List Mismatch :=
  (lists.zipIdx.map fun (found, i) => found.map (Mismatch.rebase ["Base", s!"[{i}]"])).flatten

/-- What is found for one property of an object: in the field, if it is there, and else that it is
missing, unless it may be. -/
def FindsInField (schema : Schema) (name : String) (entries : List (String × Json))
    (property : String × Property) (found : List Mismatch) : Prop :=
  match Json.field? entries property.1 with
  | some value => ∃ below, (schema.rootedAt property.2.definition).Finds value below ∧
      found = below.map (Mismatch.rebase ["Base", s!"({name})", property.1])
  | none => found = if property.2.isOptional then [] else
      [.saying ["Base", s!"({name})", property.1] .property
        s!" is required, but missing; {schema.render property.2.definition} is expected."]

def undeclared (name : String) (properties : List (String × Property))
    (entries : List (String × Json)) : List Mismatch :=
  (entries.filter fun (key, _) => key ∉ properties.map (·.1)).map fun (key, _) =>
    .saying ["Base", s!"({name})"] .property s!" has unknown key '{key}'; {name} is expected."

theorem any_key_propertyChecks (schema : Schema) (number : String × Property → Slot)
    (properties : List (String × Property)) (key : String) :
    (properties.map fun entry => schema.propertyCheck entry (number entry)).any (·.key == key) =
      decide (key ∈ properties.map (·.1)) := by
  rw [List.any_map, Bool.eq_iff_iff]
  simp [propertyCheck]

theorem unknownKeys_eq_undeclared (schema : Schema) (number : Property → Slot) (name : String)
    (properties : List (String × Property)) (entries : List (String × Json)) :
    unknownKeys (objectPath rootPath name) name
        (properties.map fun entry => schema.propertyCheck entry (number entry.2)) [] entries =
      undeclared name properties entries := by
  simp only [unknownKeys, undeclared, any_key_propertyChecks, List.not_mem_nil, not_false_eq_true,
    decide_true, Bool.and_true, decide_not]
  rfl

theorem reachable_of_mem_children {node : Node} (hnode : schema.node? schema.root = some node)
    {child : NodeId} (hchild : child ∈ node.children) : schema.Reachable child :=
  (Reachable.root schema).child (refers_of_node hnode hchild)

theorem check_start (compiled : schema.compile = .ok validator) {node : Node}
    (hnode : schema.node? schema.root = some node) (value : Json) (limit : Nat) :
    validator.checks[(Call.start validator.root value limit).slot]? =
      some (Check.ofNode schema schema.preorder schema.root node) := by
  obtain ⟨-, -, -, -, hroot, -⟩ := holds_images_of_compile compiled
  obtain ⟨other, hother, hcheck⟩ := exists_check_of_compile compiled (Reachable.root schema)
  obtain rfl : node = other := Option.some.inj (hnode.symm.trans hother)
  change validator.checks[validator.root]? = _
  rw [hroot]
  exact hcheck

theorem finds_array (compiled : schema.compile = .ok validator) {element : NodeId}
    (hnode : schema.node? schema.root = some (.array element)) (items : List Json) :
    ∃ lists, List.Forall₂ (schema.rootedAt element).Finds items lists ∧
      schema.Finds (.array items) (atPositions lists) := by
  have reached : schema.Reachable element := reachable_of_mem_children hnode List.mem_cons_self
  obtain ⟨lists, each⟩ := exists_forall₂ fun item (_ : item ∈ items) =>
    exists_finds compiled reached item
  refine ⟨lists, each.imp fun _ _ h => h.1, validator, compiled, ?_⟩
  rw [Validator.validate_eq_run, Validator.run_eq_answer, Call.answer,
    check_start compiled hnode (.array items) 0]
  change gather _ = _
  rw [atPositions, ← gather_map_ok, List.map_map]
  refine congrArg gather (map_eq_of_forall₂ (forall₂_zipIdx each 0) ?_)
  rintro ⟨item, i⟩ ⟨found, _⟩ ⟨h, rfl⟩
  exact h.2 _ _ rfl

theorem finds_tuple (compiled : schema.compile = .ok validator) {elements : List NodeId}
    (hnode : schema.node? schema.root = some (.tuple elements)) {items : List Json}
    (hlength : items.length = elements.length) :
    ∃ lists, List.Forall₂ (fun pair => (schema.rootedAt pair.1).Finds pair.2)
        (elements.zip items) lists ∧
      schema.Finds (.array items) (atPositions lists) := by
  obtain ⟨lists, each⟩ := exists_forall₂ fun pair (hpair : pair ∈ elements.zip items) =>
    exists_finds compiled (reachable_of_mem_children hnode (List.of_mem_zip hpair).1) pair.2
  refine ⟨lists, each.imp fun _ _ h => h.1, validator, compiled, ?_⟩
  have zipped : ((elements.map schema.preorder.idxOf).zip items).zipIdx =
      (elements.zip items).zipIdx.map fun ((element, item), i) =>
        ((schema.preorder.idxOf element, item), i) := by
    rw [List.zip_map_left, List.zipIdx_map]
    rfl
  rw [Validator.validate_eq_run, Validator.run_eq_answer, Call.answer,
    check_start compiled hnode (.array items) 0]
  change (if items.length = (elements.map schema.preorder.idxOf).length then _ else _) = _
  rw [List.length_map, if_pos hlength, zipped, atPositions, ← gather_map_ok, List.map_map,
    List.map_map]
  refine congrArg gather (map_eq_of_forall₂ (forall₂_zipIdx each 0) ?_)
  rintro ⟨⟨element, item⟩, i⟩ ⟨found, _⟩ ⟨h, rfl⟩
  exact h.2 _ _ rfl

theorem finds_object (compiled : schema.compile = .ok validator) {name : String}
    {properties : List (String × Property)}
    (hnode : schema.node? schema.root = some (.object name properties))
    (entries : List (String × Json)) :
    ∃ lists, List.Forall₂ (schema.FindsInField name entries) properties lists ∧
      schema.Finds (.object entries) (lists.flatten ++ undeclared name properties entries) := by
  let call := Call.start validator.root (.object entries) 0
  let inner := call.guard.after call.slot
  have inField : ∀ entry ∈ properties, ∃ found, schema.FindsInField name entries entry found ∧
      call.ofProperty validator.run name inner entries
        (schema.propertyCheck entry (schema.preorder.idxOf entry.2.definition)) = .ok found := by
    intro entry hentry
    have reached := reachable_of_mem_children hnode (List.mem_map_of_mem hentry)
    have sameKey : (schema.propertyCheck entry (schema.preorder.idxOf entry.2.definition)).key =
        entry.1 := rfl
    simp only [FindsInField, Call.ofProperty, sameKey]
    cases Json.field? entries entry.1 with
    | some value =>
        obtain ⟨found, finds, runs⟩ := exists_finds compiled reached value
        exact ⟨_, ⟨found, finds, rfl⟩, runs _ inner (Guard.after_limit _ _)⟩
    | none => exact ⟨_, rfl, rfl⟩
  obtain ⟨lists, each⟩ := exists_forall₂ inField
  refine ⟨lists, each.imp fun _ _ h => h.1, validator, compiled, ?_⟩
  rw [Validator.validate_eq_run, Validator.run_eq_answer, Call.answer,
    check_start compiled hnode (.object entries) 0]
  change call.guard.enter call.slot >>= (fun inner => gather _ >>= _) = _
  rw [Guard.enter_eq_ok _ (.inl rfl)]
  have fields : (properties.map fun entry =>
        schema.propertyCheck entry (schema.preorder.idxOf entry.2.definition)).map
          (call.ofProperty validator.run name inner entries) = lists.map .ok := by
    rw [List.map_map]
    exact map_eq_of_forall₂ each fun entry found h => h.2
  change gather _ >>= _ = _
  rw [fields, gather_map_ok, ← unknownKeys_eq_undeclared schema
    (fun property => schema.preorder.idxOf property.definition)]
  rfl

theorem finds_union (compiled : schema.compile = .ok validator) {members : List NodeId}
    (hnode : schema.node? schema.root = some (.union members)) (value : Json) :
    ∃ lists, List.Forall₂ (fun m => (schema.rootedAt m).Finds value) members lists ∧
      schema.Finds value (if [] ∈ lists then [] else
        [.saying ["Base"] .union (" does not match any union member. Possibilities: " ++
          ", ".intercalate (members.map schema.render) ++ ".")]) := by
  obtain ⟨lists, each⟩ := exists_forall₂ fun m (hm : m ∈ members) =>
    exists_finds compiled (reachable_of_mem_children hnode hm) value
  refine ⟨lists, each.imp fun _ _ h => h.1, validator, compiled, ?_⟩
  have tried : (members.map schema.preorder.idxOf).map
        (fun m => validator.run ((Call.start validator.root value 0).member m)) =
      (lists.map (List.map (Mismatch.rebase rootPath))).map .ok := by
    rw [List.map_map, List.map_map]
    exact map_eq_of_forall₂ each fun m found h => h.2 _ _ rfl
  have empty_iff : [] ∈ lists.map (List.map (Mismatch.rebase rootPath)) ↔ [] ∈ lists := by
    simp
  rw [Validator.validate_eq_run, Validator.run_eq_answer, Call.answer,
    check_start compiled hnode value 0]
  change anyEmpty _ >>= _ = _
  rw [tried, anyEmpty_map_ok]
  by_cases accepted : [] ∈ lists
  · rw [if_pos accepted, decide_eq_true (empty_iff.mpr accepted)]
    rfl
  · rw [if_neg accepted, decide_eq_false (mt empty_iff.mp accepted)]
    rfl

/-- The mismatches of a value are those of its parts, all of them and in order. Every node that is
reached is the root of a schema that compiles, and what that schema finds in an element or a field
stands at the path of the part, with the messages to match. A missing property and a key that is not
declared are one mismatch each, and so is a union of which every member finds something. -/
theorem mismatches_compose (compiled : ∃ validator, schema.compile = .ok validator) :
    (∀ id, schema.Reachable id → ∃ part, (schema.rootedAt id).compile = .ok part) ∧
    (∀ element items, schema.node? schema.root = some (.array element) →
      ∃ lists, List.Forall₂ (schema.rootedAt element).Finds items lists ∧
        schema.Finds (.array items) (atPositions lists)) ∧
    (∀ elements items, schema.node? schema.root = some (.tuple elements) →
      items.length = elements.length →
      ∃ lists, List.Forall₂ (fun pair => (schema.rootedAt pair.1).Finds pair.2)
          (elements.zip items) lists ∧
        schema.Finds (.array items) (atPositions lists)) ∧
    (∀ name properties entries, schema.node? schema.root = some (.object name properties) →
      ∃ lists, List.Forall₂ (schema.FindsInField name entries) properties lists ∧
        schema.Finds (.object entries) (lists.flatten ++ undeclared name properties entries)) ∧
    (∀ members value, schema.node? schema.root = some (.union members) →
      ∃ lists, List.Forall₂ (fun m => (schema.rootedAt m).Finds value) members lists ∧
        schema.Finds value (if [] ∈ lists then [] else
          [.saying ["Base"] .union (" does not match any union member. Possibilities: " ++
            ", ".intercalate (members.map schema.render) ++ ".")])) := by
  refine ⟨fun id reached => exists_compile_rootedAt compiled reached, ?_⟩
  obtain ⟨validator, compiled⟩ := compiled
  exact ⟨fun element items hnode => finds_array compiled hnode items,
    fun elements items hnode hlength => finds_tuple compiled hnode hlength,
    fun name properties entries hnode => finds_object compiled hnode entries,
    fun members value hnode => finds_union compiled hnode value⟩

def paths : Schema where
  root := ⟨0⟩
  nodes := [
    .tuple [⟨1⟩, ⟨2⟩],
    .object "Point" [("x", { definition := ⟨3⟩ }),
      ("label", { definition := ⟨4⟩, isOptional := true })],
    .array ⟨4⟩,
    .valueType .number,
    .union [⟨1⟩, ⟨3⟩]]

theorem paths_compiles : ∃ validator, paths.compile = .ok validator := by
  have known : paths.firstDangling? = none := by cbv
  have search : paths.images.searchCycles = .ok [4, 3, 2, 1, 0] := by cbv
  exact exists_validator_iff_searchCycles.mpr ⟨firstDangling?_eq_none_iff.mp known, _, search⟩

theorem paths_compose :
    (∃ lists, List.Forall₂ (fun pair => (paths.rootedAt pair.1).Finds pair.2)
        [(⟨1⟩, .object [("y", .null)]), (⟨2⟩, .array [.null])] lists ∧
      paths.Finds (.array [.object [("y", .null)], .array [.null]]) (atPositions lists)) ∧
    (∃ lists, List.Forall₂ ((paths.rootedAt ⟨1⟩).FindsInField "Point" [("y", .null)])
        [("x", { definition := ⟨3⟩ }), ("label", { definition := ⟨4⟩, isOptional := true })] lists ∧
      (paths.rootedAt ⟨1⟩).Finds (.object [("y", .null)]) (lists.flatten ++
        [.saying ["Base", "(Point)"] .property " has unknown key 'y'; Point is expected."])) ∧
    (∃ lists, List.Forall₂ ((paths.rootedAt ⟨2⟩).rootedAt ⟨4⟩).Finds [.null] lists ∧
      (paths.rootedAt ⟨2⟩).Finds (.array [.null]) (atPositions lists)) ∧
    ∃ lists, List.Forall₂ (fun m => ((paths.rootedAt ⟨4⟩).rootedAt m).Finds .null)
        [⟨1⟩, ⟨3⟩] lists ∧
      (paths.rootedAt ⟨4⟩).Finds .null (if [] ∈ lists then [] else
        [.saying ["Base"] .union
          " does not match any union member. Possibilities: Point, number."]) := by
  obtain ⟨parts, -, tuple, -, -⟩ := mismatches_compose paths_compiles
  have point : paths.Reachable ⟨1⟩ := reachable_of_mem_children rfl (.head _)
  have points : paths.Reachable ⟨2⟩ := reachable_of_mem_children rfl (.tail _ (.head _))
  have label : paths.Reachable ⟨4⟩ := points.child (.head _)
  obtain ⟨-, -, -, object, -⟩ := mismatches_compose (parts _ point)
  obtain ⟨-, array, -⟩ := mismatches_compose (parts _ points)
  obtain ⟨-, -, -, -, union⟩ := mismatches_compose (parts _ label)
  have possibilities : ", ".intercalate ([⟨1⟩, ⟨3⟩].map (paths.rootedAt ⟨4⟩).render) =
      "Point, number" := by
    cbv
  refine ⟨tuple _ [_, _] rfl rfl, object _ _ _ rfl, array _ _ rfl, ?_⟩
  have tried := union [⟨1⟩, ⟨3⟩] .null rfl
  rw [possibilities] at tried
  exact tried

end Schema
end Conform
