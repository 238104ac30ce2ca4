import Mathlib.Data.List.Forall2
import Mathlib.Data.Option.Basic

namespace Conform

variable {α β γ δ : Type} {R : α → β → Prop} {S : γ → δ → Prop} {xs : List α} {ys : List β}

theorem eq_none_of_rel {b : Option β} (h : Option.Rel R none b) : b = none := by
  cases h
  rfl

theorem exists_of_rel_some {a : α} {b : Option β} (h : Option.Rel R (some a) b) :
    ∃ b', b = some b' ∧ R a b' := by
  cases h with
  | some related => exact ⟨_, rfl, related⟩

theorem exists_forall₂ (h : ∀ x ∈ xs, ∃ y, R x y) : ∃ ys, List.Forall₂ R xs ys := by
  induction xs with
  | nil => exact ⟨[], .nil⟩
  | cons first rest ih =>
      obtain ⟨⟨y, hy⟩, hrest⟩ := List.forall_mem_cons.mp h
      obtain ⟨ys, hys⟩ := ih hrest
      exact ⟨y :: ys, .cons hy hys⟩

theorem exists_right_of_forall₂ (each : List.Forall₂ R xs ys) {x : α} (hx : x ∈ xs) :
    ∃ y ∈ ys, R x y := by
  induction each with
  | nil => cases hx
  | cons first _ ih =>
      rcases List.mem_cons.mp hx with rfl | hrest
      · exact ⟨_, List.mem_cons_self, first⟩
      · obtain ⟨y, hy, related⟩ := ih hrest
        exact ⟨y, List.mem_cons_of_mem _ hy, related⟩

theorem exists_left_of_forall₂ (each : List.Forall₂ R xs ys) {y : β} (hy : y ∈ ys) :
    ∃ x ∈ xs, R x y :=
  exists_right_of_forall₂ each.flip hy

theorem getElem?_rel_of_forall₂ (each : List.Forall₂ R xs ys) (i : Nat) :
    Option.Rel R xs[i]? ys[i]? := by
  induction each generalizing i with
  | nil => exact .none
  | cons first _ ih =>
      cases i with
      | zero => exact .some first
      | succ i => exact ih i

theorem map_eq_of_forall₂ {f : α → γ} {g : β → γ} (each : List.Forall₂ R xs ys)
    (agree : ∀ x y, R x y → f x = g y) : xs.map f = ys.map g := by
  induction each with
  | nil => rfl
  | cons first _ ih => rw [List.map_cons, List.map_cons, agree _ _ first, ih]

theorem forall₂_zipIdx (each : List.Forall₂ R xs ys) (start : Nat) :
    List.Forall₂ (fun x y => R x.1 y.1 ∧ x.2 = y.2) (xs.zipIdx start) (ys.zipIdx start) := by
  induction each generalizing start with
  | nil => exact .nil
  | cons first _ ih => exact .cons ⟨first, rfl⟩ (ih (start + 1))

theorem forall₂_zip_zip {us : List γ} {vs : List δ} (each : List.Forall₂ R xs ys)
    (each' : List.Forall₂ S us vs) :
    List.Forall₂ (fun x y => R x.1 y.1 ∧ S x.2 y.2) (xs.zip us) (ys.zip vs) := by
  induction each generalizing us vs with
  | nil => exact .nil
  | cons first _ ih =>
      cases each' with
      | nil => exact .nil
      | cons first' rest' => exact .cons ⟨first, first'⟩ (ih rest')

end Conform
