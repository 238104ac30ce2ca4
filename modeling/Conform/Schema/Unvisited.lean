import Conform.Schema.Basic

/-!
A measure for walks that enter nothing twice: how much is not entered yet. Each node of the arena
that is entered lowers it.
-/

namespace Conform

def unseen (size : Nat) (seen : List Nat) : Nat := (List.range size).countP (· ∉ seen)

private theorem countP_lt {p q : Nat → Bool} {l : List Nat} {a : Nat} (ha : a ∈ l)
    (hp : p a = false) (hq : q a = true) (h : ∀ x, p x = true → q x = true) :
    l.countP p < l.countP q := by
  induction l with
  | nil => simp at ha
  | cons b rest ih =>
    have hle : rest.countP p ≤ rest.countP q := List.countP_mono_left fun x _ => h x
    rcases List.mem_cons.1 ha with rfl | ha
    · simp only [List.countP_cons, hp, hq]
      simp only [if_true, Bool.false_eq_true, if_false]
      omega
    · have hlt := ih ha
      simp only [List.countP_cons]
      cases hpb : p b with
      | false => simp only [Bool.false_eq_true, if_false]; omega
      | true => simp only [h b hpb, if_true]; omega

theorem unseen_le {size : Nat} {seen more : List Nat} (hsub : seen ⊆ more) :
    unseen size more ≤ unseen size seen := by
  refine List.countP_mono_left fun i _ hi => ?_
  simp only [decide_eq_true_eq] at hi ⊢
  exact fun h => hi (hsub h)

theorem unseen_lt {size i : Nat} {seen more : List Nat} (hi : i < size) (hnew : i ∉ seen)
    (hmore : i ∈ more) (hsub : seen ⊆ more) : unseen size more < unseen size seen := by
  refine countP_lt (List.mem_range.2 hi) ?_ ?_ ?_
  · simpa using hmore
  · simpa using hnew
  · intro j hj
    simp only [decide_eq_true_eq] at hj ⊢
    exact fun h => hj (hsub h)

namespace Schema

def unvisited (schema : Schema) (visited : List NodeId) : Nat :=
  unseen schema.nodes.length (visited.map NodeId.index)

theorem unvisited_le {schema : Schema} {visited more : List NodeId} (hsub : visited ⊆ more) :
    schema.unvisited more ≤ schema.unvisited visited :=
  unseen_le (List.map_subset _ hsub)

private theorem index_notMem {visited : List NodeId} {id : NodeId} (hid : id ∉ visited) :
    id.index ∉ visited.map NodeId.index := by
  intro h
  obtain ⟨other, hother, heq⟩ := List.mem_map.1 h
  obtain rfl : other = id := by cases other; cases id; simp_all
  exact hid hother

theorem unvisited_lt {schema : Schema} {id : NodeId} {node : Node} {visited more : List NodeId}
    (hnode : schema.node? id = some node) (hid : id ∉ visited) (hmore : id ∈ more)
    (hsub : visited ⊆ more) : schema.unvisited more < schema.unvisited visited :=
  unseen_lt (index_lt_of_node?_eq_some hnode) (index_notMem hid)
    (List.mem_map_of_mem hmore) (List.map_subset _ hsub)

theorem unvisited_cons_lt {schema : Schema} {id : NodeId} {node : Node} {visited : List NodeId}
    (hnode : schema.node? id = some node) (hid : id ∉ visited) :
    schema.unvisited (id :: visited) < schema.unvisited visited :=
  unvisited_lt hnode hid (by simp) (by simp)

theorem unvisited_append_lt {schema : Schema} {id : NodeId} {node : Node} {visited : List NodeId}
    (hnode : schema.node? id = some node) (hid : id ∉ visited) :
    schema.unvisited (visited ++ [id]) < schema.unvisited visited :=
  unvisited_lt hnode hid (by simp) (by simp)

end Schema
end Conform
