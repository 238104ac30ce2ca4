import Conform.Proofs.Schema.DeclaredKeys
import Mathlib.Data.Set.Basic

/-!
What it means for a value to match a schema, said on the graph alone. An object is closed, except
that inside an intersection it may have the keys of all objects below the outermost intersection.
-/

namespace Conform.Schema

/-- A value matches the node behind a handle; `widened` are the keys of the intersection around it,
if there is one. -/
inductive Matches (schema : Schema) : NodeId → Option (Set String) → Json → Prop
  | valueType {id : NodeId} {kind : ValueKind} {widened : Option (Set String)} {value : Json}
      (hnode : schema.node? id = some (.valueType kind)) (admitted : kind.admits value) :
      Matches schema id widened value
  | literal {id : NodeId} {expected : Scalar} {widened : Option (Set String)} {value : Json}
      (hnode : schema.node? id = some (.literal expected)) (admitted : expected.admits value) :
      Matches schema id widened value
  | enum {id : NodeId} {name : String} {values : List Scalar} {listed : Scalar}
      {widened : Option (Set String)} {value : Json}
      (hnode : schema.node? id = some (.enum name values)) (hlisted : listed ∈ values)
      (admitted : listed.admits value) : Matches schema id widened value
  | array {id element : NodeId} {widened : Option (Set String)} {items : List Json}
      (hnode : schema.node? id = some (.array element))
      (each : ∀ item ∈ items, Matches schema element none item) :
      Matches schema id widened (.array items)
  | tuple {id : NodeId} {elements : List NodeId} {widened : Option (Set String)}
      {items : List Json} (hnode : schema.node? id = some (.tuple elements))
      (sameLength : items.length = elements.length)
      (each : ∀ (i : Nat) element item, elements[i]? = some element → items[i]? = some item →
        Matches schema element none item) : Matches schema id widened (.array items)
  | union {id m : NodeId} {members : List NodeId} {widened : Option (Set String)} {value : Json}
      (hnode : schema.node? id = some (.union members)) (hm : m ∈ members)
      (matching : Matches schema m widened value) : Matches schema id widened value
  | intersection {id : NodeId} {members : List NodeId} {widened : Option (Set String)}
      {value : Json} (hnode : schema.node? id = some (.intersection members))
      (each : ∀ m ∈ members, Matches schema m (some (widened.getD (schema.keysBelow id))) value) :
      Matches schema id widened value
  | object {id : NodeId} {name : String} {properties : List (String × Property)}
      {widened : Option (Set String)} {entries : List (String × Json)}
      (hnode : schema.node? id = some (.object name properties))
      (present : ∀ key property value, (key, property) ∈ properties →
        Json.field? entries key = some value → Matches schema property.definition none value)
      (absent : ∀ key property, (key, property) ∈ properties → Json.field? entries key = none →
        property.isOptional)
      (known : ∀ key value, (key, value) ∈ entries →
        (∃ property, (key, property) ∈ properties) ∨ key ∈ widened.getD ∅) :
      Matches schema id widened (.object entries)

/-- What `Matches` says of one node, given what it says of those the node refers to. -/
def Fits (schema : Schema) (fits : NodeId → Option (Set String) → Json → Prop) (id : NodeId)
    (widened : Option (Set String)) (value : Json) : Node → Prop
  | .valueType kind => kind.admits value
  | .literal expected => expected.admits value
  | .enum _ values => ∃ listed ∈ values, listed.admits value
  | .array element => ∃ items, value = .array items ∧ ∀ item ∈ items, fits element none item
  | .tuple elements =>
      ∃ items, value = .array items ∧ items.length = elements.length ∧
        ∀ (i : Nat) element item, elements[i]? = some element → items[i]? = some item →
          fits element none item
  | .union members => ∃ m ∈ members, fits m widened value
  | .intersection members =>
      ∀ m ∈ members, fits m (some (widened.getD (schema.keysBelow id))) value
  | .object _ properties =>
      ∃ entries, value = .object entries ∧
        (∀ key property value, (key, property) ∈ properties →
          Json.field? entries key = some value → fits property.definition none value) ∧
        (∀ key property, (key, property) ∈ properties → Json.field? entries key = none →
          property.isOptional) ∧
        ∀ key value, (key, value) ∈ entries →
          (∃ property, (key, property) ∈ properties) ∨ key ∈ widened.getD ∅

theorem matches_iff_of_node {schema : Schema} {id : NodeId} {node : Node}
    {widened : Option (Set String)} {value : Json} (hnode : schema.node? id = some node) :
    schema.Matches id widened value ↔ schema.Fits schema.Matches id widened value node := by
  constructor
  · intro h
    have same : ∀ {other}, schema.node? id = some other → node = other :=
      fun hother => Option.some.inj (hnode.symm.trans hother)
    cases h with
    | valueType hother admitted =>
        cases same hother
        exact admitted
    | literal hother admitted =>
        cases same hother
        exact admitted
    | enum hother hlisted admitted =>
        cases same hother
        exact ⟨_, hlisted, admitted⟩
    | array hother each =>
        cases same hother
        exact ⟨_, rfl, each⟩
    | tuple hother sameLength each =>
        cases same hother
        exact ⟨_, rfl, sameLength, each⟩
    | union hother hm matching =>
        cases same hother
        exact ⟨_, hm, matching⟩
    | intersection hother each =>
        cases same hother
        exact each
    | object hother present absent known =>
        cases same hother
        exact ⟨_, rfl, present, absent, known⟩
  · intro h
    cases node with
    | valueType kind => exact .valueType hnode h
    | literal expected => exact .literal hnode h
    | enum name values =>
        obtain ⟨listed, hlisted, admitted⟩ := h
        exact .enum hnode hlisted admitted
    | array element =>
        obtain ⟨items, rfl, each⟩ := h
        exact .array hnode each
    | tuple elements =>
        obtain ⟨items, rfl, sameLength, each⟩ := h
        exact .tuple hnode sameLength each
    | union members =>
        obtain ⟨m, hm, matching⟩ := h
        exact .union hnode hm matching
    | intersection members => exact .intersection hnode h
    | object name properties =>
        obtain ⟨entries, rfl, present, absent, known⟩ := h
        exact .object hnode present absent known

theorem Matches.rec_fits {schema : Schema} (fits : NodeId → Option (Set String) → Json → Prop)
    (step : ∀ id widened value node, schema.node? id = some node →
      schema.Fits fits id widened value node → fits id widened value)
    {id : NodeId} {widened : Option (Set String)} {value : Json}
    (h : schema.Matches id widened value) : fits id widened value := by
  induction h with
  | valueType hnode admitted => exact step _ _ _ _ hnode admitted
  | literal hnode admitted => exact step _ _ _ _ hnode admitted
  | enum hnode hlisted admitted => exact step _ _ _ _ hnode ⟨_, hlisted, admitted⟩
  | array hnode _ ih => exact step _ _ _ _ hnode ⟨_, rfl, ih⟩
  | tuple hnode sameLength _ ih => exact step _ _ _ _ hnode ⟨_, rfl, sameLength, ih⟩
  | union hnode hm _ ih => exact step _ _ _ _ hnode ⟨_, hm, ih⟩
  | intersection hnode _ ih => exact step _ _ _ _ hnode ih
  | object hnode _ absent known ih => exact step _ _ _ _ hnode ⟨_, rfl, ih, absent, known⟩

theorem Fits.transfer {schema other : Schema}
    {fits fits' : NodeId → Option (Set String) → Json → Prop} {id : NodeId}
    {widened : Option (Set String)} {value : Json} {node : Node}
    (sameKeys : other.keysBelow id = schema.keysBelow id)
    (below : ∀ child part, child ∈ node.children → fits child none part → fits' child none part)
    (alongside : ∀ m known, m ∈ node.combined →
      known = widened ∨ known = some (widened.getD (schema.keysBelow id)) →
      fits m known value → fits' m known value)
    (h : schema.Fits fits id widened value node) : other.Fits fits' id widened value node := by
  cases node with
  | valueType kind => exact h
  | literal expected => exact h
  | enum name values => exact h
  | array element =>
      obtain ⟨items, rfl, each⟩ := h
      exact ⟨items, rfl, fun item hitem => below element item List.mem_cons_self (each item hitem)⟩
  | tuple elements =>
      obtain ⟨items, rfl, sameLength, each⟩ := h
      refine ⟨items, rfl, sameLength, fun i element item helement hitem => ?_⟩
      exact below element item (List.mem_of_getElem? helement) (each i element item helement hitem)
  | union members =>
      obtain ⟨m, hm, matching⟩ := h
      exact ⟨m, hm, alongside m _ hm (.inl rfl) matching⟩
  | intersection members =>
      intro m hm
      rw [sameKeys]
      exact alongside m _ hm (.inr rfl) (h m hm)
  | object name properties =>
      obtain ⟨entries, rfl, present, absent, known⟩ := h
      refine ⟨entries, rfl, fun key property value hproperty hfield => ?_, absent, known⟩
      exact below property.definition value (List.mem_map_of_mem hproperty)
        (present key property value hproperty hfield)

end Conform.Schema
