import Conform.Files.Tree
import Mathlib.Data.List.Basic

namespace Conform.FileTree

variable {tree node : FileTree} {path : Path} {names : List String} {text : String}

def IsPlain (name : String) : Prop :=
  (name == "" || name == ".") = false ∧ (name == "..") = false ∧ name.utf8ByteSize ≤ nameLimit

instance (name : String) : Decidable (IsPlain name) := inferInstanceAs (Decidable (_ ∧ _ ∧ _))

theorem isDirectory_of_child? {name : String} (child : child? name tree = some node) :
    tree.isDirectory = true := by
  cases tree with
  | directory entries => rfl
  | file content => cases child
  | link target => cases child

theorem followFrom_eq_ok {links : Nat} {around : List String} {start : FileTree}
    (plain : ∀ name ∈ names, IsPlain name)
    (leads : names.foldlM (fun inner name => child? name inner) start = some node)
    (noLink : ∀ target, node ≠ .link target) :
    tree.followFrom links (some around) (some start) names =
      .ok (some (names.reverse ++ around), some node) := by
  induction names generalizing around start with
  | nil =>
      obtain rfl : start = node := Option.some.inj leads
      rw [followFrom]
      rfl
  | cons name rest ih =>
      obtain ⟨⟨visible, noParent, short⟩, plainRest⟩ := List.forall_mem_cons.mp plain
      rw [List.foldlM_cons] at leads
      obtain ⟨inner, child, leads⟩ := Option.bind_eq_some_iff.mp leads
      rw [List.reverse_cons, List.append_assoc, List.singleton_append, ← ih plainRest leads,
        followFrom, Option.any_some, isDirectory_of_child? child, visible, noParent,
        if_neg (Nat.not_lt.mpr short), Option.bind_some, child]
      cases inner with
      | file content => rfl
      | directory entries => rfl
      | link target =>
          -- Nothing is below a link, so this would be the last name.
          cases rest with
          | nil => exact (noLink target (Option.some.inj leads).symm).elim
          | cons name rest => cases leads

def LeadsDown (path : Path) : Prop :=
  '\x00' ∉ path.text.toList ∧ path.text.isEmpty = false ∧ path.isAbsolute = false ∧
    path.text.utf8ByteSize ≤ pathLimit ∧ ∀ name ∈ path.pieces, IsPlain name

instance (path : Path) : Decidable (LeadsDown path) := inferInstanceAs (Decidable (_ ∧ _))

theorem find_eq_ok (down : LeadsDown path)
    (leads : path.pieces.foldlM (fun inner name => child? name inner) tree = some node)
    (noLink : ∀ target, node ≠ .link target) :
    tree.find path = .ok (some path.pieces.reverse, node) := by
  obtain ⟨noNul, nonempty, relative, short, plain⟩ := down
  have hasNul : path.hasNul = false := by simpa [Path.hasNul] using noNul
  have located : tree.locate path = .ok (some (path.pieces.reverse ++ []), some node) := by
    rw [locate, hasNul, nonempty, if_neg (Nat.not_lt.mpr short), relative]
    exact followFrom_eq_ok plain leads noLink
  rw [find, located, List.append_nil]
  rfl

theorem read_eq_ok {place : Place} (found : tree.find path = .ok (place, .file text.toUTF8)) :
    tree.read path = .ok text := by
  have decoded : String.fromUTF8? text.toUTF8 = some text := dif_pos text.isValidUTF8
  rw [read, found]
  dsimp only [bind, Except.bind]
  rw [decoded]
  rfl

end Conform.FileTree
