import Conform.Proofs.Json.Parts
import Conform.Proofs.Pointwise
import Conform.Yaml.Conversion
import Mathlib.Data.List.Nodup

namespace Conform

open Relation

def YamlNumber.IsFinite (n : YamlNumber) : Prop := ∃ number, n = .finite number

namespace Yaml

variable {value part key : Yaml} {items : List Yaml} {entries : List (Yaml × Yaml)}

theorem ofItems_eq_map (items : List Json) : ofItems items = items.map ofJson := by
  induction items with
  | nil => rfl
  | cons first rest ih => rw [ofItems, ih, List.map_cons]

theorem ofEntries_eq_map (entries : List (String × Json)) :
    ofEntries entries = entries.map fun (key, value) => (.string key, ofJson value) := by
  induction entries with
  | nil => rfl
  | cons first rest ih => rw [ofEntries, ih, List.map_cons]

theorem ofJson_array (items : List Json) :
    ofJson (.array items) = .sequence (items.map ofJson) := by
  rw [ofJson, ofItems_eq_map]

theorem ofJson_object (entries : List (String × Json)) :
    ofJson (.object entries) =
      .mapping (entries.map fun (key, value) => (.string key, ofJson value)) := by
  rw [ofJson, ofEntries_eq_map]

/-! The parts of a value. Keys are no parts of it. -/

inductive IsPart (part : Yaml) : Yaml → Prop
  | item {items : List Yaml} (h : part ∈ items) : IsPart part (.sequence items)
  | field {entries : List (Yaml × Yaml)} {key : Yaml} (h : (key, part) ∈ entries) :
      IsPart part (.mapping entries)
  | content (tag : String) : IsPart part (.tagged tag part)

theorem IsPart.sizeOf_lt (h : part.IsPart value) : sizeOf part < sizeOf value := by
  cases h with
  | item h =>
      have := List.sizeOf_lt_of_mem h
      simp only [sequence.sizeOf_spec]
      omega
  | field h =>
      have := List.sizeOf_lt_of_mem h
      simp only [mapping.sizeOf_spec, Prod.mk.sizeOf_spec] at this ⊢
      omega
  | content tag =>
      simp only [tagged.sizeOf_spec]
      omega

theorem part_induction {motive : Yaml → Prop}
    (step : ∀ value, (∀ part, part.IsPart value → motive part) → motive value) (value : Yaml) :
    motive value :=
  step value fun part _ => part_induction step part
termination_by sizeOf value
decreasing_by
  rename_i h
  exact h.sizeOf_lt

/-- The value is `part` or has it somewhere inside, not counting keys. -/
def Contains (value part : Yaml) : Prop := ReflTransGen IsPart part value

/-- Where the parts of a value stand that itself stands at `base`. -/
inductive StandsAt (base : List String) (value : Yaml) : List String → Yaml → Prop
  | root : StandsAt base value base value
  | item {path : List String} {items : List Yaml} {i : Nat} {item : Yaml}
      (whole : StandsAt base value path (.sequence items)) (hitem : items[i]? = some item) :
      StandsAt base value (elementPath path i) item
  | field {path : List String} {entries : List (Yaml × Yaml)} {key below : Yaml} {text : String}
      (whole : StandsAt base value path (.mapping entries)) (hentry : (key, below) ∈ entries)
      (htext : key.keyText? = some text) : StandsAt base value (propertyPath path text) below
  | content {path : List String} {tag : String} {content : Yaml}
      (whole : StandsAt base value path (.tagged tag content)) : StandsAt base value path content

/-- A key that has a text: a string, a number or a boolean without a tag. -/
inductive IsSimpleKey : Yaml → Prop
  | string (s : String) : IsSimpleKey (.string s)
  | number (n : YamlNumber) : IsSimpleKey (.number n)
  | bool (b : Bool) : IsSimpleKey (.bool b)

theorem exists_keyText?_iff : (∃ text, key.keyText? = some text) ↔ key.IsSimpleKey := by
  constructor
  · rintro ⟨text, h⟩
    cases key with
    | string s => exact .string s
    | number n => exact .number n
    | bool b => exact .bool b
    | _ => cases h
  · rintro (s | n | b) <;> exact ⟨_, rfl⟩

theorem keyText?_eq_none_iff : key.keyText? = none ↔ ¬ key.IsSimpleKey := by
  rw [← exists_keyText?_iff, ← Option.ne_none_iff_exists', not_not]

/-- The texts of the keys that have one, in order. -/
def keyTexts (entries : List (Yaml × Yaml)) : List String := entries.filterMap (·.1.keyText?)

theorem keyTexts_cons {text : String} (htext : key.keyText? = some text) :
    keyTexts ((key, value) :: entries) = text :: keyTexts entries :=
  List.filterMap_cons_some htext

/-- Nothing in the value would be lost as JSON but its tags. -/
structure IsRepresentable (value : Yaml) : Prop where
  finite : ∀ n, value.Contains (.number n) → n.IsFinite
  simple : ∀ entries, value.Contains (.mapping entries) → ∀ entry ∈ entries, entry.1.IsSimpleKey
  distinct : ∀ entries, value.Contains (.mapping entries) → (keyTexts entries).Nodup

mutual

/-- The document that is the same tree without tags: items in their order, and entries in their
order under the texts of their keys. Numbers are taken over as they are. -/
inductive Denotes : Yaml → Json → Prop
  | null : Denotes .null .null
  | bool (b : Bool) : Denotes (.bool b) (.bool b)
  | number (n : Number) : Denotes (.number (.finite n)) (.number n)
  | string (s : String) : Denotes (.string s) (.string s)
  | sequence {items : List Yaml} {documents : List Json}
      (each : List.Forall₂ Denotes items documents) : Denotes (.sequence items) (.array documents)
  | mapping {entries : List (Yaml × Yaml)} {fields : List (String × Json)}
      (each : List.Forall₂ DenotesField entries fields) :
      Denotes (.mapping entries) (.object fields)
  | tagged (tag : String) {content : Yaml} {document : Json} (h : Denotes content document) :
      Denotes (.tagged tag content) document

inductive DenotesField : Yaml × Yaml → String × Json → Prop
  | entry {key value : Yaml} {text : String} {document : Json} (htext : key.keyText? = some text)
      (h : Denotes value document) : DenotesField (key, value) (text, document)

end

/-! What is representable, by the cases of a value. -/

theorem isRepresentable_iff : value.IsRepresentable ↔
    (∀ n, value = .number n → n.IsFinite) ∧
    (∀ entries, value = .mapping entries →
      (∀ entry ∈ entries, entry.1.IsSimpleKey) ∧ (keyTexts entries).Nodup) ∧
    ∀ part : Yaml, part.IsPart value → part.IsRepresentable := by
  constructor
  · intro h
    refine ⟨?_, ?_, fun part hpart => ⟨?_, ?_, ?_⟩⟩
    · rintro n rfl
      exact h.finite n .refl
    · rintro entries rfl
      exact ⟨h.simple entries .refl, h.distinct entries .refl⟩
    · exact (forall_reflTransGen_iff.mp h.finite).2 part hpart
    · exact (forall_reflTransGen_iff.mp h.simple).2 part hpart
    · exact (forall_reflTransGen_iff.mp h.distinct).2 part hpart
  · rintro ⟨finite, keys, parts⟩
    refine ⟨forall_reflTransGen_iff.mpr ⟨?_, fun part hpart => (parts part hpart).finite⟩,
      forall_reflTransGen_iff.mpr ⟨?_, fun part hpart => (parts part hpart).simple⟩,
      forall_reflTransGen_iff.mpr ⟨?_, fun part hpart => (parts part hpart).distinct⟩⟩
    · exact fun n heq => finite n heq.symm
    · exact fun entries heq => (keys entries heq.symm).1
    · exact fun entries heq => (keys entries heq.symm).2

theorem isRepresentable_of_no_part (parts : ∀ part : Yaml, ¬ part.IsPart value)
    (number : ∀ n, value ≠ .number n) (mapping : ∀ entries, value ≠ .mapping entries) :
    value.IsRepresentable :=
  isRepresentable_iff.mpr ⟨fun n heq => absurd heq (number n),
    fun entries heq => absurd heq (mapping entries), fun part hpart => absurd hpart (parts part)⟩

theorem isRepresentable_number_iff {n : YamlNumber} :
    (Yaml.number n).IsRepresentable ↔ n.IsFinite := by
  rw [isRepresentable_iff]
  refine ⟨fun h => h.1 n rfl, fun finite => ⟨?_, by simp, fun part hpart => by cases hpart⟩⟩
  rintro _ ⟨rfl⟩
  exact finite

theorem isRepresentable_sequence_iff :
    (Yaml.sequence items).IsRepresentable ↔ ∀ item ∈ items, item.IsRepresentable := by
  rw [isRepresentable_iff]
  constructor
  · exact fun h item hitem => h.2.2 item (.item hitem)
  · refine fun h => ⟨by simp, by simp, fun part hpart => ?_⟩
    cases hpart with
    | item hitem => exact h part hitem

theorem isRepresentable_mapping_iff :
    (Yaml.mapping entries).IsRepresentable ↔
      (∀ entry ∈ entries, entry.1.IsSimpleKey ∧ entry.2.IsRepresentable) ∧
        (keyTexts entries).Nodup := by
  rw [isRepresentable_iff]
  constructor
  · rintro ⟨-, keys, parts⟩
    obtain ⟨simple, distinct⟩ := keys entries rfl
    exact ⟨fun entry hentry => ⟨simple entry hentry, parts entry.2 (.field hentry)⟩, distinct⟩
  · rintro ⟨each, distinct⟩
    refine ⟨by simp, ?_, fun part hpart => ?_⟩
    · rintro _ ⟨rfl⟩
      exact ⟨fun entry hentry => (each entry hentry).1, distinct⟩
    · cases hpart with
      | field hentry => exact (each _ hentry).2

theorem isRepresentable_tagged_iff {tag : String} :
    (Yaml.tagged tag value).IsRepresentable ↔ value.IsRepresentable := by
  rw [isRepresentable_iff]
  constructor
  · exact fun h => h.2.2 value (.content tag)
  · refine fun h => ⟨by simp, by simp, fun part hpart => ?_⟩
    cases hpart with
    | content => exact h

end Yaml
end Conform
