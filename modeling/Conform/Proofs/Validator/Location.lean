import Conform.Proofs.Validator.Acceptance

/-!
Where mismatches are found. The path of a mismatch is that of a walk through the schema and the
value together, and where the walk ends the part of the value fails the node on its own account.
-/

namespace Conform

open Relation

/-- Where a walk stands: at a node and a part of the value, having come along a path. Inside an
intersection `widened` are its keys. -/
structure Spot where
  path : List String
  id : NodeId
  widened : Option (Set String)
  value : Json

/-- One step of a walk. It never goes on to a member of a union. -/
inductive Schema.Leads (schema : Schema) (spot : Spot) : Spot → Prop
  | part {members : List NodeId} {m : NodeId}
      (hnode : schema.node? spot.id = some (.intersection members)) (hm : m ∈ members) :
      Leads schema spot ⟨spot.path, m,
        some (spot.widened.getD (schema.keysBelow spot.id)), spot.value⟩
  | item {element : NodeId} {items : List Json} {i : Nat} {item : Json}
      (hnode : schema.node? spot.id = some (.array element)) (hvalue : spot.value = .array items)
      (hitem : items[i]? = some item) :
      Leads schema spot ⟨elementPath spot.path i, element, none, item⟩
  | position {elements : List NodeId} {items : List Json} {i : Nat} {element : NodeId}
      {item : Json} (hnode : schema.node? spot.id = some (.tuple elements))
      (hvalue : spot.value = .array items) (hlength : items.length = elements.length)
      (helement : elements[i]? = some element) (hitem : items[i]? = some item) :
      Leads schema spot ⟨elementPath spot.path i, element, none, item⟩
  | field {name : String} {properties : List (String × Property)} {entries : List (String × Json)}
      {key : String} {property : Property} {value : Json}
      (hnode : schema.node? spot.id = some (.object name properties))
      (hvalue : spot.value = .object entries) (hproperty : (key, property) ∈ properties)
      (hfield : Json.field? entries key = some value) :
      Leads schema spot
        ⟨propertyPath (objectPath spot.path name) key, property.definition, none, value⟩

/-- How a value fails at a spot on its own account, whatever its elements and fields are, with the
path at which that is said. -/
inductive Schema.Fails (schema : Schema) (spot : Spot) : MismatchKind → List String → Prop
  | valueType {kind : ValueKind} (hnode : schema.node? spot.id = some (.valueType kind))
      (refused : ¬ kind.admits spot.value) : Fails schema spot .valueType spot.path
  | literal {expected : Scalar} (hnode : schema.node? spot.id = some (.literal expected))
      (refused : ¬ expected.admits spot.value) : Fails schema spot .literal spot.path
  | enum {name : String} {values : List Scalar}
      (hnode : schema.node? spot.id = some (.enum name values))
      (refused : ∀ listed ∈ values, ¬ listed.admits spot.value) :
      Fails schema spot .enum spot.path
  | array {element : NodeId} (hnode : schema.node? spot.id = some (.array element))
      (shape : ∀ items, spot.value ≠ .array items) : Fails schema spot .array spot.path
  | tuple {elements : List NodeId} (hnode : schema.node? spot.id = some (.tuple elements))
      (shape : ∀ items, spot.value = .array items → items.length ≠ elements.length) :
      Fails schema spot .tuple spot.path
  | union {members : List NodeId} (hnode : schema.node? spot.id = some (.union members))
      (refused : ∀ m ∈ members, ¬ schema.Matches m spot.widened spot.value) :
      Fails schema spot .union spot.path
  | object {name : String} {properties : List (String × Property)}
      (hnode : schema.node? spot.id = some (.object name properties))
      (shape : ∀ entries, spot.value ≠ .object entries) : Fails schema spot .object spot.path
  | missing {name : String} {properties : List (String × Property)}
      {entries : List (String × Json)} {key : String} {property : Property}
      (hnode : schema.node? spot.id = some (.object name properties))
      (hvalue : spot.value = .object entries) (hproperty : (key, property) ∈ properties)
      (required : ¬ property.isOptional) (absent : key ∉ entries.map (·.1)) :
      Fails schema spot .property (propertyPath (objectPath spot.path name) key)
  | unknown {name : String} {properties : List (String × Property)}
      {entries : List (String × Json)} {key : String}
      (hnode : schema.node? spot.id = some (.object name properties))
      (hvalue : spot.value = .object entries) (present : key ∈ entries.map (·.1))
      (undeclared : key ∉ properties.map (·.1)) (unwidened : key ∉ spot.widened.getD ∅) :
      Fails schema spot .property (objectPath spot.path name)

/-- The message of a mismatch is its path and what is said of it, with a space in between. -/
def Mismatch.Worded (mismatch : Mismatch) : Prop :=
  ∃ text, mismatch.message = Mismatch.pathText mismatch.path ++ text ∧ text.toList.head? = some ' '

theorem exists_of_mem_gather {ε α : Type} {results : List (Except ε (List α))} {found : List α}
    {a : α} (answered : gather results = .ok found) (ha : a ∈ found) :
    ∃ part, .ok part ∈ results ∧ a ∈ part := by
  induction results generalizing found with
  | nil =>
      cases answered
      cases ha
  | cons first rest ih =>
      obtain ⟨part, hfirst, others⟩ := exists_of_bind_eq_ok answered
      obtain ⟨more, hrest, hfound⟩ := exists_of_bind_eq_ok others
      obtain rfl : part ++ more = found := Except.ok.inj hfound
      rcases List.mem_append.mp ha with hpart | hmore
      · exact ⟨part, hfirst ▸ List.mem_cons_self, hpart⟩
      · obtain ⟨later, hlater, hin⟩ := ih hrest hmore
        exact ⟨later, List.mem_cons_of_mem _ hlater, hin⟩

theorem exists_of_gather_eq_ok {ε α : Type} {results : List (Except ε (List α))} {found : List α}
    {result : Except ε (List α)} (answered : gather results = .ok found) (h : result ∈ results) :
    ∃ part, result = .ok part ∧ part ⊆ found := by
  induction results generalizing found with
  | nil => cases h
  | cons first rest ih =>
      obtain ⟨part, hfirst, others⟩ := exists_of_bind_eq_ok answered
      obtain ⟨more, hrest, hfound⟩ := exists_of_bind_eq_ok others
      obtain rfl : part ++ more = found := Except.ok.inj hfound
      rcases List.mem_cons.mp h with rfl | hlater
      · exact ⟨part, hfirst, List.subset_append_left _ _⟩
      · obtain ⟨later, hresult, hsubset⟩ := ih hrest hlater
        exact ⟨later, hresult, List.subset_append_of_subset_right _ hsubset⟩

theorem mem_absence_iff {path : List String} {property : PropertyCheck} {mismatch : Mismatch} :
    mismatch ∈ absence path property ↔ ¬ property.isOptional ∧
      mismatch = .saying (propertyPath path property.key) .property
        s!" is required, but missing; {property.expected} is expected." := by
  rw [absence]
  split <;> simp_all

theorem mem_unknownKeys_iff {path : List String} {name : String} {properties : List PropertyCheck}
    {widened : List String} {entries : List (String × Json)} {mismatch : Mismatch} :
    mismatch ∈ unknownKeys path name properties widened entries ↔
      ∃ key ∈ entries.map (·.1), key ∉ properties.map (·.key) ∧ key ∉ widened ∧
        mismatch = .saying path .property s!" has unknown key '{key}'; {name} is expected." := by
  simp only [unknownKeys, List.mem_map, List.mem_filter, Prod.exists, Bool.and_eq_true,
    Bool.not_eq_true', List.any_eq_false, decide_eq_true_eq, beq_iff_eq]
  constructor
  · rintro ⟨key, value, ⟨hentry, undeclared, unwidened⟩, rfl⟩
    exact ⟨key, ⟨key, value, hentry, rfl⟩, by simpa using undeclared, unwidened, rfl⟩
  · rintro ⟨_, ⟨key, value, hentry, rfl⟩, undeclared, unwidened, rfl⟩
    exact ⟨key, value, ⟨hentry, by simpa using undeclared, unwidened⟩, rfl⟩

theorem Call.ofProperty_of_field {ε : Type} {recur : Call → Except ε (List Mismatch)} {call : Call}
    {name : String} {inner : Guard} {entries : List (String × Json)} {property : PropertyCheck}
    {value : Json} (hfield : Json.field? entries property.key = some value) :
    call.ofProperty recur name inner entries property =
      recur (call.field name inner property value) := by
  rw [ofProperty, hfield]

theorem Call.ofProperty_of_absent {ε : Type} {recur : Call → Except ε (List Mismatch)} {call : Call}
    {name : String} {inner : Guard} {entries : List (String × Json)} {property : PropertyCheck}
    (habsent : Json.field? entries property.key = none) :
    call.ofProperty recur name inner entries property =
      .ok (absence (objectPath call.path name) property) := by
  rw [ofProperty, habsent]

def Call.spot (call : Call) (id : NodeId) : Spot :=
  ⟨call.path, id, Schema.keySet call.widened, call.value⟩

namespace Schema

variable {schema : Schema} {validator : Validator} {id : NodeId} {mismatch : Mismatch}

section Answers

variable {ε : Type} {abort : LimitReached → ε} {checks : List Check} {call : Call}
  {recur : Call → Except ε (List Mismatch)} {found : List Mismatch}

def FoundBelow (schema : Schema) (checks : List Check) (call : Call)
    (recur : Call → Except ε (List Mismatch)) (id : NodeId) (mismatch : Mismatch) : Prop :=
  ∃ next child, call.MayMake checks next ∧ next.slot = schema.preorder.idxOf child ∧
    schema.Refers id child ∧ schema.Leads (call.spot id) (next.spot child) ∧
    ∃ part, recur next = .ok part ∧ mismatch ∈ part

def FoundAt (schema : Schema) (spot : Spot) (mismatch : Mismatch) : Prop :=
  schema.Fails spot mismatch.kind mismatch.path ∧ mismatch.Worded

theorem FoundAt.of_mem_singleton {spot : Spot} {path : List String} {kind : MismatchKind}
    {text : String} (hmem : mismatch ∈ [Mismatch.saying path kind text])
    (fails : schema.Fails spot kind path) (worded : text.toList.head? = some ' ') :
    schema.FoundAt spot mismatch := by
  obtain rfl := List.mem_singleton.mp hmem
  exact ⟨fails, text, rfl, worded⟩

private theorem found_of_array {element : NodeId} (hnode : schema.node? id = some (.array element))
    (hcheck : checks[call.slot]? =
      some (Check.ofNode schema schema.preorder id (.array element)))
    (answered : call.answer abort checks recur = .ok found) (hmem : mismatch ∈ found) :
    schema.FoundAt (call.spot id) mismatch ∨
      schema.FoundBelow checks call recur id mismatch := by
  simp only [Call.answer, hcheck, Check.ofNode] at answered
  split at answered
  · rename_i items hvalue
    obtain ⟨part, hpart, hin⟩ := exists_of_mem_gather answered hmem
    obtain ⟨⟨item, i⟩, hentry, hrecur⟩ := List.mem_map.mp hpart
    have hitem := List.mem_zipIdx_iff_getElem?.mp hentry
    exact .inr ⟨_, element, .item hcheck hvalue hitem, rfl,
      refers_of_node hnode List.mem_cons_self, .item hnode hvalue hitem, part, hrecur, hin⟩
  · rename_i hshape
    cases answered
    exact .inl (.of_mem_singleton hmem (.array hnode hshape) (by simp))

private theorem found_of_tuple {elements : List NodeId}
    (hnode : schema.node? id = some (.tuple elements))
    (hcheck : checks[call.slot]? =
      some (Check.ofNode schema schema.preorder id (.tuple elements)))
    (answered : call.answer abort checks recur = .ok found) (hmem : mismatch ∈ found) :
    schema.FoundAt (call.spot id) mismatch ∨
      schema.FoundBelow checks call recur id mismatch := by
  simp only [Call.answer, hcheck, Check.ofNode] at answered
  split at answered
  · rename_i items hvalue
    split at answered
    · rename_i hlength
      obtain ⟨part, hpart, hin⟩ := exists_of_mem_gather answered hmem
      obtain ⟨⟨⟨slot, item⟩, i⟩, hentry, hrecur⟩ := List.mem_map.mp hpart
      obtain ⟨hslot, hitem⟩ := List.getElem?_zip_eq_some.mp (List.mem_zipIdx_iff_getElem?.mp hentry)
      have made := Call.mayMake_position hcheck hvalue hlength hentry
      rw [List.getElem?_map, Option.map_eq_some_iff] at hslot
      obtain ⟨element, helement, rfl⟩ := hslot
      rw [List.length_map] at hlength
      exact .inr ⟨_, element, made, rfl, refers_of_node hnode (List.mem_of_getElem? helement),
        .position hnode hvalue hlength helement hitem, part, hrecur, hin⟩
    · rename_i hlength
      cases answered
      refine .inl (.of_mem_singleton hmem (.tuple hnode ?_) (by simp [toString]))
      intro others hothers
      obtain rfl := Json.array.inj (hvalue.symm.trans hothers)
      rwa [List.length_map] at hlength
  · rename_i hshape
    cases answered
    refine .inl (.of_mem_singleton hmem (.tuple hnode ?_) (by simp [toString]))
    exact fun items hitems => absurd hitems (hshape items)

private theorem found_of_union {members : List NodeId}
    (hnode : schema.node? id = some (.union members))
    (hcheck : checks[call.slot]? =
      some (Check.ofNode schema schema.preorder id (.union members)))
    (unfit : ¬ schema.Fits schema.Matches id (keySet call.widened) call.value (.union members))
    (answered : call.answer abort checks recur = .ok found) (hmem : mismatch ∈ found) :
    schema.FoundAt (call.spot id) mismatch := by
  rw [Call.answer, hcheck] at answered
  -- What the members find is dropped, whether or not one of them accepts.
  obtain ⟨accepted, -, hfound⟩ := exists_of_bind_eq_ok answered
  cases accepted with
  | true =>
      cases hfound
      cases hmem
  | false =>
      cases hfound
      refine .of_mem_singleton hmem (.union hnode ?_) (by simp [toString])
      exact fun m hm matching => unfit ⟨m, hm, matching⟩

private theorem found_of_intersection {members : List NodeId}
    (hnode : schema.node? id = some (.intersection members))
    (hcheck : checks[call.slot]? =
      some (Check.ofNode schema schema.preorder id (.intersection members)))
    (answered : call.answer abort checks recur = .ok found) (hmem : mismatch ∈ found) :
    schema.FoundBelow checks call recur id mismatch := by
  rw [Call.answer, hcheck] at answered
  obtain ⟨part, hpart, hin⟩ := exists_of_mem_gather answered hmem
  obtain ⟨slot, hslot, hrecur⟩ := List.mem_map.mp hpart
  have made : call.MayMake checks _ := .part hcheck hslot
  obtain ⟨m, hm, rfl⟩ := List.mem_map.mp hslot
  have leads : schema.Leads (call.spot id) ⟨call.path, m,
      some ((keySet call.widened).getD (schema.keysBelow id)), call.value⟩ := .part hnode hm
  rw [← keySet_getD_declaredKeys hnode] at leads
  exact ⟨_, m, made, rfl, refers_of_node hnode hm, leads, part, hrecur, hin⟩

private theorem exists_of_answer_object {name : String} {properties : List PropertyCheck}
    {entries : List (String × Json)} (hcheck : checks[call.slot]? = some (.object name properties))
    (hvalue : call.value = .object entries)
    (answered : call.answer abort checks recur = .ok found) :
    ∃ inner fields, call.guard.enter call.slot = .ok inner ∧
      gather (properties.map (call.ofProperty recur name inner entries)) = .ok fields ∧
      found = fields ++
        unknownKeys (objectPath call.path name) name properties (call.widened.getD []) entries := by
  simp only [Call.answer, hcheck, hvalue] at answered
  obtain ⟨inner, henter, others⟩ := exists_of_bind_eq_ok answered
  obtain ⟨fields, hfields, hfound⟩ := exists_of_bind_eq_ok others
  refine ⟨inner, fields, ?_, hfields, (Except.ok.inj hfound).symm⟩
  cases hguard : call.guard.enter call.slot with
  | error reached =>
      rw [hguard] at henter
      cases henter
  | ok guard =>
      rw [hguard] at henter
      cases henter
      rfl

private theorem found_of_property {name : String} {properties : List (String × Property)}
    {entries : List (String × Json)} {inner : Guard} {entry : String × Property}
    (hnode : schema.node? id = some (.object name properties))
    (hcheck : checks[call.slot]? =
      some (Check.ofNode schema schema.preorder id (.object name properties)))
    (hvalue : call.value = .object entries) (henter : call.guard.enter call.slot = .ok inner)
    (hentry : entry ∈ properties)
    (answered : call.ofProperty recur name inner entries
      (schema.propertyCheck entry (schema.preorder.idxOf entry.2.definition)) = .ok found)
    (hmem : mismatch ∈ found) :
    schema.FoundAt (call.spot id) mismatch ∨
      schema.FoundBelow checks call recur id mismatch := by
  have hproperty := List.mem_map_of_mem
    (f := fun entry => schema.propertyCheck entry (schema.preorder.idxOf entry.2.definition)) hentry
  rw [Call.ofProperty] at answered
  split at answered
  · rename_i value hfield
    exact .inr ⟨_, entry.2.definition, .field hcheck hvalue henter hproperty hfield, rfl,
      refers_of_node hnode (List.mem_map_of_mem hentry), .field hnode hvalue hentry hfield, found,
      answered, hmem⟩
  · rename_i habsent
    cases answered
    obtain ⟨required, rfl⟩ := mem_absence_iff.mp hmem
    have missing : schema.Fails (call.spot id) .property
        (propertyPath (objectPath call.path name) entry.1) :=
      .missing hnode hvalue hentry required (Json.field?_eq_none_iff.mp habsent)
    exact .inl ⟨missing, _, rfl, by simp [toString]⟩

private theorem found_of_object {name : String} {properties : List (String × Property)}
    (hnode : schema.node? id = some (.object name properties))
    (hcheck : checks[call.slot]? =
      some (Check.ofNode schema schema.preorder id (.object name properties)))
    (answered : call.answer abort checks recur = .ok found) (hmem : mismatch ∈ found) :
    schema.FoundAt (call.spot id) mismatch ∨
      schema.FoundBelow checks call recur id mismatch := by
  by_cases hshape : ∃ entries, call.value = .object entries
  · obtain ⟨entries, hvalue⟩ := hshape
    obtain ⟨inner, fields, henter, hfields, rfl⟩ := exists_of_answer_object hcheck hvalue answered
    rcases List.mem_append.mp hmem with hfield | hunknown
    · obtain ⟨part, hpart, hin⟩ := exists_of_mem_gather hfields hfield
      rw [List.map_map] at hpart
      obtain ⟨entry, hentry, hrecur⟩ := List.mem_map.mp hpart
      exact found_of_property hnode hcheck hvalue henter hentry hrecur hin
    · obtain ⟨key, present, undeclared, unwidened, rfl⟩ := mem_unknownKeys_iff.mp hunknown
      have unknown : schema.Fails (call.spot id) .property (objectPath call.path name) := by
        refine .unknown hnode hvalue present ?_ (mt mem_keySet_getD.mp unwidened)
        rwa [List.map_map] at undeclared
      exact .inl ⟨unknown, _, rfl, by simp [toString]⟩
  · simp only [Call.answer, hcheck, Check.ofNode] at answered
    split at answered
    · rename_i entries hvalue
      exact absurd ⟨entries, hvalue⟩ hshape
    · cases answered
      refine .inl (.of_mem_singleton hmem (.object hnode ?_) (by simp [toString]))
      exact fun entries hvalue => hshape ⟨entries, hvalue⟩

/-- What an answer holds was found where the call stands, and the value fails there, or further on.
-/
theorem foundAt_or_foundBelow {node : Node} (hnode : schema.node? id = some node)
    (hcheck : checks[call.slot]? = some (Check.ofNode schema schema.preorder id node))
    (unfit : ¬ schema.Fits schema.Matches id (keySet call.widened) call.value node)
    (answered : call.answer abort checks recur = .ok found) (hmem : mismatch ∈ found) :
    schema.FoundAt (call.spot id) mismatch ∨
      schema.FoundBelow checks call recur id mismatch := by
  cases node with
  | valueType kind =>
      rw [Fits] at unfit
      simp only [Call.answer, hcheck, Check.ofNode, if_neg unfit] at answered
      cases answered
      exact .inl (.of_mem_singleton hmem (.valueType hnode unfit) (by simp [toString]))
  | literal expected =>
      rw [Fits] at unfit
      simp only [Call.answer, hcheck, Check.ofNode, if_neg unfit] at answered
      cases answered
      exact .inl (.of_mem_singleton hmem (.literal hnode unfit) (by simp [toString]))
  | enum name values =>
      rw [Fits, ← List.any_eq_true] at unfit
      simp only [Call.answer, hcheck, Check.ofNode, if_neg unfit] at answered
      cases answered
      refine .inl (.of_mem_singleton hmem (.enum hnode ?_) (by simp [toString]))
      exact fun listed hlisted admits => unfit (List.any_eq_true.mpr ⟨listed, hlisted, admits⟩)
  | array element => exact found_of_array hnode hcheck answered hmem
  | tuple elements => exact found_of_tuple hnode hcheck answered hmem
  | union members => exact .inl (found_of_union hnode hcheck unfit answered hmem)
  | intersection members => exact .inr (found_of_intersection hnode hcheck answered hmem)
  | object name properties => exact found_of_object hnode hcheck answered hmem

theorem exists_of_leads {spot : Spot}
    (checked : ∀ node, schema.node? id = some node →
      checks[call.slot]? = some (Check.ofNode schema schema.preorder id node))
    (answered : call.answer abort checks recur = .ok found)
    (leads : schema.Leads (call.spot id) spot) :
    ∃ next child part, call.MayMake checks next ∧ next.slot = schema.preorder.idxOf child ∧
      schema.Refers id child ∧ next.spot child = spot ∧ recur next = .ok part ∧ part ⊆ found := by
  cases leads with
  | @part members m hnode hm =>
      have hcheck := checked _ hnode
      have hslot : schema.preorder.idxOf m ∈ members.map schema.preorder.idxOf :=
        List.mem_map_of_mem hm
      rw [Call.answer, hcheck] at answered
      obtain ⟨part, hpart, kept⟩ := exists_of_gather_eq_ok answered (List.mem_map_of_mem hslot)
      refine ⟨_, m, part, .part hcheck hslot, rfl, refers_of_node hnode hm, ?_, hpart, kept⟩
      exact congrArg (Spot.mk call.path m · call.value)
        (keySet_getD_declaredKeys hnode call.widened)
  | @item element items i item hnode hvalue hitem =>
      have hcheck := checked _ hnode
      have hentry : (item, i) ∈ items.zipIdx := List.mem_zipIdx_iff_getElem?.mpr hitem
      change call.value = _ at hvalue
      rw [Call.answer, hcheck, hvalue] at answered
      obtain ⟨part, hpart, kept⟩ := exists_of_gather_eq_ok answered (List.mem_map_of_mem hentry)
      exact ⟨_, element, part, .item hcheck hvalue hitem, rfl,
        refers_of_node hnode List.mem_cons_self, rfl, hpart, kept⟩
  | @position elements items i element item hnode hvalue hlength helement hitem =>
      have hcheck := checked _ hnode
      have sameLength : items.length = (elements.map schema.preorder.idxOf).length := by
        rw [List.length_map, hlength]
      have hslot : (elements.map schema.preorder.idxOf)[i]? =
          some (schema.preorder.idxOf element) := by
        rw [List.getElem?_map, helement, Option.map_some]
      have hentry : ((schema.preorder.idxOf element, item), i) ∈
          ((elements.map schema.preorder.idxOf).zip items).zipIdx :=
        List.mem_zipIdx_iff_getElem?.mpr (List.getElem?_zip_eq_some.mpr ⟨hslot, hitem⟩)
      change call.value = _ at hvalue
      simp only [Call.answer, hcheck, hvalue, Check.ofNode, if_pos sameLength] at answered
      obtain ⟨part, hpart, kept⟩ := exists_of_gather_eq_ok answered (List.mem_map_of_mem hentry)
      exact ⟨_, element, part, .position hcheck hvalue sameLength hslot hitem, rfl,
        refers_of_node hnode (List.mem_of_getElem? helement), rfl, hpart, kept⟩
  | @field name properties entries key property value hnode hvalue hproperty hfield =>
      have hcheck := checked _ hnode
      change call.value = _ at hvalue
      have hentry := List.mem_map_of_mem
        (f := fun entry => schema.propertyCheck entry (schema.preorder.idxOf entry.2.definition))
        hproperty
      obtain ⟨inner, fields, henter, hfields, rfl⟩ := exists_of_answer_object hcheck hvalue answered
      obtain ⟨part, hpart, kept⟩ := exists_of_gather_eq_ok hfields (List.mem_map_of_mem hentry)
      rw [Call.ofProperty_of_field hfield] at hpart
      exact ⟨_, property.definition, part, .field hcheck hvalue henter hentry hfield, rfl,
        refers_of_node hnode (List.mem_map_of_mem hproperty), rfl, hpart,
        List.subset_append_of_subset_left _ kept⟩

theorem exists_of_fails {kind : MismatchKind} {path : List String}
    (checked : ∀ node, schema.node? id = some node →
      checks[call.slot]? = some (Check.ofNode schema schema.preorder id node))
    (accepts : call.answer abort checks recur = .ok [] →
      schema.Matches id (keySet call.widened) call.value)
    (answered : call.answer abort checks recur = .ok found)
    (fails : schema.Fails (call.spot id) kind path) :
    ∃ mismatch ∈ found, mismatch.kind = kind ∧ mismatch.path = path := by
  have single : ∀ {text}, .ok [Mismatch.saying path kind text] = Except.ok (ε := ε) found →
      ∃ mismatch ∈ found, mismatch.kind = kind ∧ mismatch.path = path := by
    intro text h
    cases h
    exact ⟨_, List.mem_singleton_self _, rfl, rfl⟩
  cases fails with
  | @valueType expected hnode refused =>
      have refused : ¬ expected.admits call.value := refused
      simp only [Call.answer, checked _ hnode, Check.ofNode, if_neg refused] at answered
      exact single answered
  | @literal expected hnode refused =>
      have refused : ¬ expected.admits call.value := refused
      simp only [Call.answer, checked _ hnode, Check.ofNode, if_neg refused] at answered
      exact single answered
  | @enum name values hnode refused =>
      have refused : ∀ listed ∈ values, ¬ listed.admits call.value := refused
      have unlisted : ¬ values.any (·.admits call.value) := by simpa using refused
      simp only [Call.answer, checked _ hnode, Check.ofNode, if_neg unlisted] at answered
      exact single answered
  | array hnode shape =>
      simp only [Call.answer, checked _ hnode, Check.ofNode] at answered
      split at answered
      · rename_i items hvalue
        exact absurd hvalue (shape items)
      · exact single answered
  | tuple hnode shape =>
      simp only [Call.answer, checked _ hnode, Check.ofNode, List.length_map] at answered
      split at answered
      · rename_i items hvalue
        rw [if_neg (shape items hvalue)] at answered
        exact single answered
      · exact single answered
  | @union members hnode refused =>
      -- What the members find is not known here, but an answer of nothing would be a match.
      have unaccepted : call.answer abort checks recur ≠ .ok [] := by
        intro h
        obtain ⟨m, hm, matching⟩ := (matches_iff_of_node hnode).mp (accepts h)
        exact refused m hm matching
      rw [Call.answer, checked _ hnode] at answered unaccepted
      obtain ⟨accepted, htried, hfound⟩ := exists_of_bind_eq_ok answered
      cases accepted with
      | true =>
          cases hfound
          exact absurd answered unaccepted
      | false => exact single hfound
  | object hnode shape =>
      simp only [Call.answer, checked _ hnode, Check.ofNode] at answered
      split at answered
      · rename_i entries hvalue
        exact absurd hvalue (shape entries)
      · exact single answered
  | @missing name properties entries key property hnode hvalue hproperty required absent =>
      obtain ⟨inner, fields, henter, hfields, rfl⟩ :=
        exists_of_answer_object (checked _ hnode) hvalue answered
      have hentry := List.mem_map_of_mem
        (f := fun entry => schema.propertyCheck entry (schema.preorder.idxOf entry.2.definition))
        hproperty
      obtain ⟨part, hpart, kept⟩ := exists_of_gather_eq_ok hfields (List.mem_map_of_mem hentry)
      rw [Call.ofProperty_of_absent (Json.field?_eq_none_iff.mpr absent)] at hpart
      obtain rfl := Except.ok.inj hpart
      have hmem := kept (mem_absence_iff.mpr ⟨required, rfl⟩)
      exact ⟨_, List.mem_append_left _ hmem, rfl, rfl⟩
  | @unknown name properties entries key hnode hvalue present undeclared unwidened =>
      obtain ⟨inner, fields, henter, hfields, rfl⟩ :=
        exists_of_answer_object (checked _ hnode) hvalue answered
      have undeclared : key ∉ (properties.map fun entry => schema.propertyCheck entry
          (schema.preorder.idxOf entry.2.definition)).map (·.key) := by
        rwa [List.map_map]
      have unwidened : key ∉ call.widened.getD [] := mt mem_keySet_getD.mpr unwidened
      exact ⟨_, List.mem_append_right _ (mem_unknownKeys_iff.mpr
        ⟨key, present, undeclared, unwidened, rfl⟩), rfl, rfl⟩

end Answers

theorem exists_foundAt_of_run (compiled : schema.compile = .ok validator) {call : Call}
    (reached : schema.Reachable id) (hslot : call.slot = schema.preorder.idxOf id)
    (unlimited : call.guard.limit = 0) {found : List Mismatch}
    (answered : validator.run call = .ok found) (hmem : mismatch ∈ found) :
    ∃ spot, ReflTransGen schema.Leads (call.spot id) spot ∧ schema.FoundAt spot mismatch := by
  induction call using validator.call_induction generalizing id found with
  | step call ih =>
      obtain ⟨node, hnode, hcheck⟩ := exists_check_of_compile compiled reached
      rw [← hslot] at hcheck
      have unfit : ¬ schema.Fits schema.Matches id (keySet call.widened) call.value node := by
        rw [← matches_iff_of_node hnode, ← run_eq_ok_nil_iff compiled call reached hslot unlimited,
          answered]
        rintro h
        cases h
        cases hmem
      rw [Validator.run_eq_answer] at answered
      rcases foundAt_or_foundBelow hnode hcheck unfit answered hmem with
        here | ⟨next, child, made, hnext, refers, leads, part, hpart, hin⟩
      · exact ⟨_, .refl, here⟩
      · have hinner : next.guard.limit = 0 := by
          rw [made.guard_eq unlimited, Call.inner_limit, unlimited]
        obtain ⟨spot, walk, failing⟩ := ih next made (reached.child refers) hnext hinner hpart hin
        exact ⟨spot, .head leads walk, failing⟩

theorem exists_mem_of_fails (compiled : schema.compile = .ok validator) {call : Call}
    (reached : schema.Reachable id) (hslot : call.slot = schema.preorder.idxOf id)
    (unlimited : call.guard.limit = 0) {found : List Mismatch}
    (answered : validator.run call = .ok found) {spot : Spot}
    (walk : ReflTransGen schema.Leads (call.spot id) spot) {kind : MismatchKind}
    {path : List String} (fails : schema.Fails spot kind path) :
    ∃ mismatch ∈ found, mismatch.kind = kind ∧ mismatch.path = path := by
  -- The walk has a step for each call, save that calls for members of a union have none.
  induction call using validator.call_induction generalizing id found with
  | step call ih =>
      obtain ⟨here, hhere, hcheck⟩ := exists_check_of_compile compiled reached
      rw [← hslot] at hcheck
      have checked : ∀ node, schema.node? id = some node →
          validator.checks[call.slot]? =
            some (Check.ofNode schema schema.preorder id node) := by
        intro node hnode
        obtain rfl : here = node := Option.some.inj (hhere.symm.trans hnode)
        exact hcheck
      have accepts := (run_eq_ok_nil_iff compiled call reached hslot unlimited).mp
      rw [Validator.run_eq_answer] at answered accepts
      rcases ReflTransGen.cases_head walk with rfl | ⟨first, leads, rest⟩
      · exact exists_of_fails checked accepts answered fails
      · obtain ⟨next, child, part, made, hnext, refers, rfl, hpart, kept⟩ :=
          exists_of_leads checked answered leads
        obtain ⟨mismatch, hmem, same⟩ :=
          ih next made (reached.child refers) hnext (made.limit_eq_zero unlimited) hpart rest
        exact ⟨mismatch, kept hmem, same⟩

/-- The mismatches of a value, whatever the limit, are those of the spots where it fails and to
which a walk leads from the root: each has the kind and the path of such a failure and says it in
its message, and no failure is passed over. -/
theorem mismatch_located (compiled : schema.compile = .ok validator) {value : Json} {limit : Nat}
    {found : List Mismatch} (answered : validator.validate value limit = .ok found) :
    (∀ mismatch ∈ found,
      ∃ spot, ReflTransGen schema.Leads ⟨rootPath, schema.root, none, value⟩ spot ∧
        schema.Fails spot mismatch.kind mismatch.path ∧
        ∃ text, mismatch.message = Mismatch.pathText mismatch.path ++ text ∧
          text.toList.head? = some ' ') ∧
    ∀ spot kind path, ReflTransGen schema.Leads ⟨rootPath, schema.root, none, value⟩ spot →
      schema.Fails spot kind path →
      ∃ mismatch ∈ found, mismatch.kind = kind ∧ mismatch.path = path := by
  obtain ⟨-, -, -, -, hroot, -⟩ := holds_images_of_compile compiled
  have unlimited := validator.validate_zero_of_eq_ok answered
  rw [Validator.validate_eq_run] at unlimited
  constructor
  · intro mismatch hmem
    exact exists_foundAt_of_run compiled (Reachable.root schema) hroot rfl unlimited hmem
  · intro spot kind path walk fails
    exact exists_mem_of_fails compiled (Reachable.root schema) hroot rfl unlimited walk fails

theorem mismatch_located_namedLinks : ∃ validator found,
    namedLinks.compile = .ok validator ∧ validator.validate (.object []) 0 = .ok found ∧
    (∀ mismatch ∈ found,
      ∃ spot, ReflTransGen namedLinks.Leads ⟨rootPath, ⟨0⟩, none, .object []⟩ spot ∧
        namedLinks.Fails spot mismatch.kind mismatch.path ∧
        ∃ text, mismatch.message = Mismatch.pathText mismatch.path ++ text ∧
          text.toList.head? = some ' ') ∧
    ∃ mismatch ∈ found, mismatch.kind = .property ∧
      mismatch.path = ["Base", "(Named)", "name"] := by
  obtain ⟨validator, compiled⟩ := namedLinks_compiles
  obtain ⟨found, answered⟩ :=
    validator.exists_run_eq_ok (.start validator.root (.object []) 0) rfl
  obtain ⟨located, complete⟩ := mismatch_located compiled answered
  refine ⟨validator, found, compiled, answered, located, ?_⟩
  have named : namedLinks.Leads ⟨rootPath, ⟨0⟩, none, .object []⟩
      ⟨rootPath, ⟨2⟩, some (namedLinks.keysBelow ⟨0⟩), .object []⟩ :=
    .part rfl (List.mem_cons_of_mem _ List.mem_cons_self)
  have declared : namedLinks.node? ⟨2⟩ = some (.object "Named" [("name", { definition := ⟨4⟩ })]) :=
    rfl
  have missing : namedLinks.Fails ⟨rootPath, ⟨2⟩, some (namedLinks.keysBelow ⟨0⟩), .object []⟩
      .property (propertyPath (objectPath rootPath "Named") "name") :=
    .missing declared rfl List.mem_cons_self Bool.false_ne_true List.not_mem_nil
  exact complete _ _ _ (.single named) missing

end Schema

end Conform
