import Conform.Proofs.Pointwise
import Conform.Proofs.Validator.Acceptance
import Mathlib.Data.Option.Basic

namespace Conform

open Relation

/-- A declared property after the change: under the same key, of the same definition, and optional
at least where it was. -/
structure Property.EvolvesTo (before after : String × Property) : Prop where
  key : after.1 = before.1
  definition : after.2.definition = before.2.definition
  isOptional : before.2.isOptional → after.2.isOptional

/-- A node after any number of changes that let it allow more. -/
inductive Node.EvolvesTo : Node → Node → Prop
  | valueType (kind : ValueKind) : EvolvesTo (.valueType kind) (.valueType kind)
  | literal (value : Scalar) : EvolvesTo (.literal value) (.literal value)
  | object {name : String} {before after : List (String × Property)}
      (each : List.Forall₂ Property.EvolvesTo before after) :
      EvolvesTo (.object name before) (.object name after)
  | array (element : NodeId) : EvolvesTo (.array element) (.array element)
  | tuple (elements : List NodeId) : EvolvesTo (.tuple elements) (.tuple elements)
  | union {before after : List NodeId} (inserted : before.Sublist after) :
      EvolvesTo (.union before) (.union after)
  | intersection (members : List NodeId) : EvolvesTo (.intersection members) (.intersection members)
  | enum {name : String} {before after : List Scalar} (added : before.Sublist after) :
      EvolvesTo (.enum name before) (.enum name after)

theorem Node.EvolvesTo.combined_subset {before after : Node} (h : before.EvolvesTo after) :
    before.combined ⊆ after.combined := by
  cases h with
  | union inserted => exact inserted.subset
  | _ => exact List.Subset.refl _

theorem Node.EvolvesTo.keys_eq {before after : Node} (h : before.EvolvesTo after) :
    after.keys = before.keys := by
  cases h with
  | object each =>
      simp only [Node.keys]
      induction each with
      | nil => rfl
      | cons first _ ih => rw [List.map_cons, List.map_cons, first.key, ih]
  | _ => rfl

namespace Schema

/-- A schema after any number of changes that let it allow more: each node in its place has evolved,
and further nodes follow. -/
def EvolvesTo (schema other : Schema) : Prop :=
  other.root = schema.root ∧
    ∃ kept added, List.Forall₂ Node.EvolvesTo schema.nodes kept ∧ other.nodes = kept ++ added

variable {schema other : Schema} {id m : NodeId}

theorem EvolvesTo.exists_node (evolves : schema.EvolvesTo other) {node : Node}
    (hnode : schema.node? id = some node) :
    ∃ after, other.node? id = some after ∧ node.EvolvesTo after := by
  obtain ⟨-, kept, added, each, hnodes⟩ := evolves
  obtain ⟨hindex, rfl⟩ := List.getElem?_eq_some_iff.mp hnode
  have hkept : id.index < kept.length := each.length_eq ▸ hindex
  refine ⟨kept[id.index], ?_, each.get hindex hkept⟩
  rw [node?, hnodes, List.getElem?_append_left hkept, List.getElem?_eq_getElem hkept]

theorem EvolvesTo.combines (evolves : schema.EvolvesTo other) (h : schema.Combines id m) :
    other.Combines id m := by
  obtain ⟨node, hnode, hm⟩ := h
  obtain ⟨after, hafter, hevolves⟩ := evolves.exists_node hnode
  exact ⟨after, hafter, hevolves.combined_subset hm⟩

theorem EvolvesTo.declares (evolves : schema.EvolvesTo other) {key : String}
    (h : schema.Declares id key) : other.Declares id key := by
  obtain ⟨node, hnode, hkey⟩ := h
  obtain ⟨after, hafter, hevolves⟩ := evolves.exists_node hnode
  exact ⟨after, hafter, hevolves.keys_eq ▸ hkey⟩

theorem EvolvesTo.keysBelow_subset (evolves : schema.EvolvesTo other) (id : NodeId) :
    schema.keysBelow id ⊆ other.keysBelow id := by
  rintro key ⟨object, hpath, hdeclares⟩
  exact ⟨object, TransGen.mono (fun _ _ => evolves.combines) _ _ hpath, evolves.declares hdeclares⟩

/-- What the surroundings know before and after: nothing in both cases, or no fewer keys. -/
abbrev KnowsMore (before after : Option (Set String)) : Prop := Option.Rel (· ⊆ ·) before after

theorem KnowsMore.getD_subset {before after : Option (Set String)} {keys more : Set String}
    (h : KnowsMore before after) (hkeys : keys ⊆ more) : before.getD keys ⊆ after.getD more := by
  cases h with
  | none => exact hkeys
  | some hsub => exact hsub

/-- What matches goes on to match. The keys that an object accepts from an intersection around it
may grow on the way, so the claim is about any that are at least those from before. -/
theorem Matches.evolve (evolves : schema.EvolvesTo other) {before after : Option (Set String)}
    {value : Json} (h : schema.Matches id before value) (knows : KnowsMore before after) :
    other.Matches id after value := by
  induction h generalizing after with
  | valueType hnode admitted =>
      obtain ⟨_, hafter, evolved⟩ := evolves.exists_node hnode
      cases evolved with
      | valueType => exact .valueType hafter admitted
  | literal hnode admitted =>
      obtain ⟨_, hafter, evolved⟩ := evolves.exists_node hnode
      cases evolved with
      | literal => exact .literal hafter admitted
  | enum hnode hlisted admitted =>
      obtain ⟨_, hafter, evolved⟩ := evolves.exists_node hnode
      cases evolved with
      | enum added => exact .enum hafter (added.subset hlisted) admitted
  | array hnode _ ih =>
      obtain ⟨_, hafter, evolved⟩ := evolves.exists_node hnode
      cases evolved with
      | array => exact .array hafter fun item hitem => ih item hitem .none
  | tuple hnode sameLength _ ih =>
      obtain ⟨_, hafter, evolved⟩ := evolves.exists_node hnode
      cases evolved with
      | tuple =>
          exact .tuple hafter sameLength fun i element item helement hitem =>
            ih i element item helement hitem .none
  | union hnode hm _ ih =>
      obtain ⟨_, hafter, evolved⟩ := evolves.exists_node hnode
      cases evolved with
      | union inserted => exact .union hafter (inserted.subset hm) (ih knows)
  | intersection hnode _ ih =>
      obtain ⟨_, hafter, evolved⟩ := evolves.exists_node hnode
      cases evolved with
      | intersection =>
          refine .intersection hafter fun m hm => ih m hm (.some ?_)
          exact knows.getD_subset (evolves.keysBelow_subset _)
  | object hnode _ absent known ih =>
      obtain ⟨_, hafter, evolved⟩ := evolves.exists_node hnode
      cases evolved with
      | object each =>
          refine .object hafter ?_ ?_ ?_
          · intro key property value hproperty hfield
            obtain ⟨⟨_, old⟩, hold, rfl, hdefinition, -⟩ := exists_left_of_forall₂ each hproperty
            rw [hdefinition]
            exact ih _ old value hold hfield .none
          · intro key property hproperty hfield
            obtain ⟨⟨_, old⟩, hold, rfl, -, hoptional⟩ := exists_left_of_forall₂ each hproperty
            exact hoptional (absent _ old hold hfield)
          · intro key value hentry
            refine (known key value hentry).imp ?_ fun hkey =>
              knows.getD_subset (Set.Subset.refl ∅) hkey
            rintro ⟨old, hold⟩
            obtain ⟨⟨_, property⟩, hproperty, rfl, -⟩ := exists_right_of_forall₂ each hold
            exact ⟨property, hproperty⟩

/-- Every value that a schema accepts is accepted after the schema has evolved. -/
theorem accepted_of_evolvesTo (evolves : schema.EvolvesTo other) {validator validator' : Validator}
    (compiled : schema.compile = .ok validator) (compiled' : other.compile = .ok validator')
    {value : Json} (accepted : validator.validate value 0 = .ok []) :
    validator'.validate value 0 = .ok [] := by
  rw [accepts_iff_matches compiled] at accepted
  rw [accepts_iff_matches compiled', evolves.1]
  exact accepted.evolve evolves .none

def notes : Schema where
  root := ⟨0⟩
  nodes := [
    .intersection [⟨1⟩, ⟨2⟩],
    .object "Note" [("level", { definition := ⟨3⟩ }), ("next", { definition := ⟨6⟩ })],
    .union [⟨4⟩],
    .enum "Level" [.string "low"],
    .object "Text" [("text", { definition := ⟨5⟩ })],
    .valueType .string,
    .union [⟨7⟩, ⟨0⟩],
    .valueType .null]

def richerNotes : Schema where
  root := ⟨0⟩
  nodes := [
    .intersection [⟨1⟩, ⟨2⟩],
    .object "Note" [("level", { definition := ⟨3⟩ }),
      ("next", { definition := ⟨6⟩, isOptional := true })],
    .union [⟨8⟩, ⟨4⟩],
    .enum "Level" [.string "high", .string "low"],
    .object "Text" [("text", { definition := ⟨5⟩ })],
    .valueType .string,
    .union [⟨7⟩, ⟨0⟩],
    .valueType .null,
    .object "Picture" [("address", { definition := ⟨5⟩ })]]

theorem notes_evolvesTo : notes.EvolvesTo richerNotes := by
  refine ⟨rfl, richerNotes.nodes.take 8, richerNotes.nodes.drop 8, ?_, rfl⟩
  have next : List.Forall₂ Property.EvolvesTo
      [("level", { definition := ⟨3⟩ }), ("next", { definition := ⟨6⟩ })]
      [("level", { definition := ⟨3⟩ }), ("next", { definition := ⟨6⟩, isOptional := true })] :=
    .cons ⟨rfl, rfl, id⟩ (.cons ⟨rfl, rfl, fun _ => rfl⟩ .nil)
  have text : List.Forall₂ Property.EvolvesTo [("text", { definition := ⟨5⟩ })]
      [("text", { definition := ⟨5⟩ })] := .cons ⟨rfl, rfl, id⟩ .nil
  exact .cons (.intersection _) <| .cons (.object next) <|
    .cons (.union (List.sublist_cons_self _ _)) <| .cons (.enum (List.sublist_cons_self _ _)) <|
    .cons (.object text) <| .cons (.valueType _) <| .cons (.union (List.Sublist.refl _)) <|
    .cons (.valueType _) .nil

private theorem notes_matches {entries : List (String × Json)} {text : String} {following : Json}
    (hkeys : entries.map (·.1) ⊆ ["level", "next", "text"])
    (hlevel : Json.field? entries "level" = some (.string "low"))
    (hnext : Json.field? entries "next" = some following)
    (htext : Json.field? entries "text" = some (.string text))
    (hfollowing : notes.Matches ⟨6⟩ none following) :
    notes.Matches ⟨0⟩ none (.object entries) := by
  have toNote : notes.Combines ⟨0⟩ ⟨1⟩ := ⟨_, rfl, List.mem_cons_self⟩
  have toBody : notes.Combines ⟨0⟩ ⟨2⟩ := ⟨_, rfl, List.mem_cons_of_mem _ List.mem_cons_self⟩
  have toText : notes.Combines ⟨2⟩ ⟨4⟩ := ⟨_, rfl, List.mem_cons_self⟩
  have known : ∀ key value, (key, value) ∈ entries → key ∈ notes.keysBelow ⟨0⟩ := by
    intro key value hentry
    have hkey : key = "level" ∨ key = "next" ∨ key = "text" := by
      simpa using hkeys (List.mem_map_of_mem hentry)
    rcases hkey with rfl | rfl | rfl
    · exact ⟨⟨1⟩, .single toNote, _, rfl, List.mem_cons_self⟩
    · exact ⟨⟨1⟩, .single toNote, _, rfl, List.mem_cons_of_mem _ List.mem_cons_self⟩
    · exact ⟨⟨4⟩, .tail (.single toBody) toText, _, rfl, List.mem_cons_self⟩
  have note : notes.Matches ⟨1⟩ (some (notes.keysBelow ⟨0⟩)) (.object entries) := by
    have low : notes.Matches ⟨3⟩ none (.string "low") := .enum rfl List.mem_cons_self rfl
    refine .object rfl ?_ ?_ fun key value hentry => .inr (known key value hentry)
    · intro key property value hproperty hfield
      rcases List.mem_cons.mp hproperty with heq | hproperty
      · obtain ⟨rfl, rfl⟩ := Prod.mk.inj heq
        obtain rfl := Option.some.inj (hlevel.symm.trans hfield)
        exact low
      · obtain ⟨rfl, rfl⟩ := Prod.mk.inj (List.mem_singleton.mp hproperty)
        obtain rfl := Option.some.inj (hnext.symm.trans hfield)
        exact hfollowing
    · intro key property hproperty hfield
      rcases List.mem_cons.mp hproperty with heq | hproperty
      · obtain ⟨rfl, -⟩ := Prod.mk.inj heq
        cases hlevel.symm.trans hfield
      · obtain ⟨rfl, -⟩ := Prod.mk.inj (List.mem_singleton.mp hproperty)
        cases hnext.symm.trans hfield
  have body : notes.Matches ⟨4⟩ (some (notes.keysBelow ⟨0⟩)) (.object entries) := by
    have isString : notes.Matches ⟨5⟩ none (.string text) := .valueType rfl rfl
    refine .object rfl ?_ ?_ fun key value hentry => .inr (known key value hentry)
    · intro key property value hproperty hfield
      obtain ⟨rfl, rfl⟩ := Prod.mk.inj (List.mem_singleton.mp hproperty)
      obtain rfl := Option.some.inj (htext.symm.trans hfield)
      exact isString
    · simp [htext]
  exact .intersection rfl (List.forall_mem_cons.mpr
    ⟨note, List.forall_mem_singleton.mpr (.union rfl List.mem_cons_self body)⟩)

theorem accepted_richerNotes : ∃ validator validator',
    notes.compile = .ok validator ∧ richerNotes.compile = .ok validator' ∧
    notes.EvolvesTo richerNotes ∧
    validator.validate (.object [("level", .string "low"), ("text", .string "a"),
      ("next", .object [("next", .null), ("text", .string "b"), ("level", .string "low")])])
      0 = .ok [] ∧
    validator'.validate (.object [("level", .string "low"), ("text", .string "a"),
      ("next", .object [("next", .null), ("text", .string "b"), ("level", .string "low")])])
      0 = .ok [] := by
  have known : notes.firstDangling? = none ∧ richerNotes.firstDangling? = none := by
    constructor <;> cbv
  have search : notes.images.searchCycles = .ok [7, 3, 4, 2, 0, 5, 6, 1] := by cbv
  have search' : richerNotes.images.searchCycles = .ok [7, 3, 4, 2, 0, 5, 8, 6, 1] := by cbv
  obtain ⟨validator, compiled⟩ := exists_validator_iff_searchCycles.mpr
    ⟨firstDangling?_eq_none_iff.mp known.1, _, search⟩
  obtain ⟨validator', compiled'⟩ := exists_validator_iff_searchCycles.mpr
    ⟨firstDangling?_eq_none_iff.mp known.2, _, search'⟩
  have last : notes.Matches ⟨6⟩ none .null :=
    .union rfl List.mem_cons_self (.valueType rfl rfl)
  have second : notes.Matches ⟨0⟩ none
      (.object [("next", .null), ("text", .string "b"), ("level", .string "low")]) :=
    notes_matches (by simp) rfl rfl rfl last
  have first : notes.Matches ⟨0⟩ none (.object [("level", .string "low"), ("text", .string "a"),
      ("next", .object [("next", .null), ("text", .string "b"), ("level", .string "low")])]) :=
    notes_matches (by simp) rfl rfl rfl
      (.union rfl (List.mem_cons_of_mem _ List.mem_cons_self) second)
  have accepted := (accepts_iff_matches compiled).mpr first
  exact ⟨validator, validator', compiled, compiled', notes_evolvesTo, accepted,
    accepted_of_evolvesTo notes_evolvesTo compiled compiled' accepted⟩

end Schema
end Conform
