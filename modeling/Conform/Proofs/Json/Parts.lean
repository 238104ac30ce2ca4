import Conform.Json.Basic
import Mathlib.Logic.Relation

namespace Conform

open Relation

theorem forall_reflTransGen_iff {α β : Type} {r : α → α → Prop} {f : β → α} {p : β → Prop}
    {whole : α} :
    (∀ x, ReflTransGen r (f x) whole → p x) ↔
      (∀ x, f x = whole → p x) ∧
        ∀ part, r part whole → ∀ x, ReflTransGen r (f x) part → p x := by
  constructor
  · intro h
    exact ⟨fun x hx => h x (hx ▸ .refl), fun part hpart x hx => h x (hx.tail hpart)⟩
  · rintro ⟨here, parts⟩ x hx
    rcases hx.cases_tail with hwhole | ⟨part, hx, hpart⟩
    · exact here x hwhole.symm
    · exact parts part hpart x hx

namespace Json

inductive IsPart (part : Json) : Json → Prop
  | item {items : List Json} (h : part ∈ items) : IsPart part (.array items)
  | field {entries : List (String × Json)} {key : String} (h : (key, part) ∈ entries) :
      IsPart part (.object entries)

mutual

def objectDepth : Json → Nat
  | .array items => itemsObjectDepth items
  | .object entries => entriesObjectDepth entries + 1
  | _ => 0

def itemsObjectDepth : List Json → Nat
  | [] => 0
  | item :: rest => max item.objectDepth (itemsObjectDepth rest)

def entriesObjectDepth : List (String × Json) → Nat
  | [] => 0
  | (_, value) :: rest => max value.objectDepth (entriesObjectDepth rest)

end

theorem depth_le_itemsDepth {items : List Json} {item : Json} (h : item ∈ items) :
    item.depth ≤ itemsDepth items := by
  induction items with
  | nil => cases h
  | cons first rest ih =>
      rw [itemsDepth]
      rcases List.mem_cons.mp h with rfl | hrest
      · exact Nat.le_max_left _ _
      · exact Nat.le_trans (ih hrest) (Nat.le_max_right _ _)

theorem depth_le_entriesDepth {entries : List (String × Json)} {key : String} {value : Json}
    (h : (key, value) ∈ entries) : value.depth ≤ entriesDepth entries := by
  induction entries with
  | nil => cases h
  | cons first rest ih =>
      rw [entriesDepth]
      rcases List.mem_cons.mp h with rfl | hrest
      · exact Nat.le_max_left _ _
      · exact Nat.le_trans (ih hrest) (Nat.le_max_right _ _)

theorem IsPart.depth_lt {part whole : Json} (h : part.IsPart whole) : part.depth < whole.depth := by
  cases h with
  | item h =>
      rw [depth]
      exact Nat.lt_succ_of_le (depth_le_itemsDepth h)
  | field h =>
      rw [depth]
      exact Nat.lt_succ_of_le (depth_le_entriesDepth h)

theorem part_induction {motive : Json → Prop}
    (step : ∀ value, (∀ part : Json, part.IsPart value → motive part) → motive value)
    (value : Json) : motive value :=
  step value fun part _ => part_induction step part
termination_by value.depth
decreasing_by
  rename_i h
  exact h.depth_lt

theorem objectDepth_item_le {items : List Json} {item : Json} (h : item ∈ items) :
    item.objectDepth ≤ (Json.array items).objectDepth := by
  rw [objectDepth]
  induction items with
  | nil => cases h
  | cons first rest ih =>
      rw [itemsObjectDepth]
      rcases List.mem_cons.mp h with rfl | hrest
      · exact Nat.le_max_left _ _
      · exact Nat.le_trans (ih hrest) (Nat.le_max_right _ _)

theorem objectDepth_field_lt {entries : List (String × Json)} {key : String} {value : Json}
    (h : (key, value) ∈ entries) : value.objectDepth < (Json.object entries).objectDepth := by
  rw [objectDepth, Nat.lt_succ_iff]
  induction entries with
  | nil => cases h
  | cons first rest ih =>
      rw [entriesObjectDepth]
      rcases List.mem_cons.mp h with rfl | hrest
      · exact Nat.le_max_left _ _
      · exact Nat.le_trans (ih hrest) (Nat.le_max_right _ _)

def HasDistinctKeys (value : Json) : Prop :=
  ∀ entries, ReflTransGen IsPart (.object entries) value → (entries.map (·.1)).Nodup

theorem hasDistinctKeys_of_no_part {value : Json} (parts : ∀ part : Json, ¬ part.IsPart value)
    (scalar : ∀ entries, value ≠ .object entries) : value.HasDistinctKeys :=
  forall_reflTransGen_iff.mpr ⟨fun entries heq => absurd heq.symm (scalar entries),
    fun part hpart => absurd hpart (parts part)⟩

theorem hasDistinctKeys_array_iff {items : List Json} :
    (Json.array items).HasDistinctKeys ↔ ∀ item ∈ items, item.HasDistinctKeys := by
  rw [HasDistinctKeys, forall_reflTransGen_iff]
  constructor
  · rintro ⟨-, parts⟩ item hitem
    exact parts item (.item hitem)
  · intro h
    refine ⟨by simp, fun part hpart => ?_⟩
    cases hpart with
    | item hitem => exact h part hitem

theorem hasDistinctKeys_object_iff {entries : List (String × Json)} :
    (Json.object entries).HasDistinctKeys ↔
      (entries.map (·.1)).Nodup ∧ ∀ entry ∈ entries, entry.2.HasDistinctKeys := by
  rw [HasDistinctKeys, forall_reflTransGen_iff]
  refine and_congr (by simp) ⟨fun parts entry hentry => parts entry.2 (.field hentry), ?_⟩
  intro h part hpart
  cases hpart with
  | field hentry => exact h _ hentry

end Json
end Conform
