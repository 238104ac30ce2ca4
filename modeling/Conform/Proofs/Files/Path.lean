import Conform.Files.Path
import Mathlib.Data.List.Basic

namespace Conform.Path

variable {name : String}

theorem isAbsolute_eq_false (noSlash : '/' ∉ name.toList) : isAbsolute ⟨name⟩ = false := by
  rw [isAbsolute]
  cases h : name.toList with
  | nil => rfl
  | cons first rest =>
      rw [h, List.mem_cons, not_or] at noSlash
      simpa using Ne.symm noSlash.1

theorem pieces_of_noSlash (noSlash : '/' ∉ name.toList) : pieces ⟨name⟩ = [name] := by
  rw [pieces, List.splitOn_eq_singleton noSlash, List.map_singleton, String.ofList_toList]

theorem pieces_append (text : String) (noSlash : '/' ∉ name.toList) :
    pieces ⟨text ++ "/" ++ name⟩ = pieces ⟨text⟩ ++ [name] := by
  have chars : (text ++ "/" ++ name).toList = text.toList ++ '/' :: name.toList := by simp
  rw [pieces, chars, List.splitOn_append_cons_self, List.splitOn_eq_singleton noSlash,
    List.map_append, List.map_singleton, String.ofList_toList]
  rfl

theorem exists_pieces_join (path : Path) (noSlash : '/' ∉ name.toList) :
    ∃ before, (path.join ⟨name⟩).pieces = before ++ [name] := by
  rw [join, isAbsolute_eq_false noSlash, Bool.false_or]
  split_ifs with hempty hslash
  · exact ⟨[], pieces_of_noSlash noSlash⟩
  · obtain ⟨chars, hchars⟩ := List.getLast?_eq_some_iff.mp (beq_iff_eq.mp hslash)
    have text : path.text = String.ofList chars ++ "/" := by
      rw [← String.ofList_toList (s := path.text), hchars, String.ofList_append]
    rw [text]
    exact ⟨_, pieces_append _ noSlash⟩
  · exact ⟨_, pieces_append _ noSlash⟩

theorem name?_join (path : Path) (noSlash : '/' ∉ name.toList) (visible : isVoid name = false)
    (noParent : name ≠ "..") : (path.join ⟨name⟩).name? = some name := by
  obtain ⟨before, hpieces⟩ := path.exists_pieces_join noSlash
  simp [name?, hpieces, List.filter_append, visible, noParent]

theorem below_append_singleton (path : Path) (names : List String) (name : String) :
    path.below (names ++ [name]) = (path.below names).join ⟨name⟩ := by
  rw [below, List.foldl_append]
  rfl

end Conform.Path
