import Conform.Schema.Unvisited
import Mathlib.Logic.Relation

/-!
What a schema reaches from its root, as a relation on handles and as the list of the handles in the
order of a depth-first walk. A handle that refers to nothing is met like any other and leads
nowhere.
-/

namespace Conform

open Relation

def Node.combined : Node → List NodeId
  | .union members => members
  | .intersection members => members
  | _ => []

theorem Node.combined_subset_children (node : Node) : node.combined ⊆ node.children := by
  cases node <;> simp [Node.combined, Node.children]

namespace Schema

def childrenOf (schema : Schema) (id : NodeId) : List NodeId :=
  (schema.node? id).elim [] Node.children

def Refers (schema : Schema) (id child : NodeId) : Prop := child ∈ schema.childrenOf id

def Combines (schema : Schema) (id m : NodeId) : Prop :=
  ∃ node, schema.node? id = some node ∧ m ∈ node.combined

def Reachable (schema : Schema) (id : NodeId) : Prop :=
  ReflTransGen schema.Refers schema.root id

def Dangling (schema : Schema) (id : NodeId) : Prop := schema.node? id = none

instance (schema : Schema) : DecidablePred schema.Dangling :=
  fun id => inferInstanceAs (Decidable (schema.node? id = none))

@[simp] theorem childrenOf_of_node {schema : Schema} {id : NodeId} {node : Node}
    (hnode : schema.node? id = some node) : schema.childrenOf id = node.children := by
  simp [childrenOf, hnode]

@[simp] theorem childrenOf_of_dangling {schema : Schema} {id : NodeId}
    (hnode : schema.node? id = none) : schema.childrenOf id = [] := by
  simp [childrenOf, hnode]

theorem refers_of_node {schema : Schema} {id child : NodeId} {node : Node}
    (hnode : schema.node? id = some node) (hchild : child ∈ node.children) :
    schema.Refers id child := by
  rw [Refers, childrenOf_of_node hnode]
  exact hchild

theorem refers_iff {schema : Schema} {id child : NodeId} :
    schema.Refers id child ↔ ∃ node, schema.node? id = some node ∧ child ∈ node.children := by
  rw [Refers, childrenOf]
  cases schema.node? id <;> simp

theorem Combines.refers {schema : Schema} {id m : NodeId} (h : schema.Combines id m) :
    schema.Refers id m := by
  obtain ⟨node, hnode, hm⟩ := h
  exact refers_of_node hnode (node.combined_subset_children hm)

theorem Reachable.root (schema : Schema) : schema.Reachable schema.root := ReflTransGen.refl

theorem Reachable.child {schema : Schema} {id child : NodeId} (h : schema.Reachable id)
    (hchild : schema.Refers id child) : schema.Reachable child :=
  ReflTransGen.tail h hchild

/-- Walks on from the handles that wait, depth first and in declaration order, after those `met`.
What was met before is passed over, so each node is expanded once. -/
def preorderFrom (schema : Schema) (met : List NodeId) : List NodeId → List NodeId
  | [] => met
  | id :: waiting =>
    if _ : id ∈ met then schema.preorderFrom met waiting
    else schema.preorderFrom (met ++ [id]) (schema.childrenOf id ++ waiting)
termination_by waiting => (schema.unvisited met, waiting.length)
decreasing_by
  · exact Prod.Lex.right _ (Nat.lt_succ_self _)
  · cases hnode : schema.node? id with
    | some node => exact Prod.Lex.left _ _ (unvisited_append_lt hnode ‹_›)
    | none =>
        have hle : schema.unvisited (met ++ [id]) ≤ schema.unvisited met :=
          unvisited_le (List.subset_append_left met [id])
        rcases Nat.lt_or_eq_of_le hle with less | same
        · exact Prod.Lex.left _ _ less
        · rw [same, childrenOf_of_dangling hnode]
          exact Prod.Lex.right _ (Nat.lt_succ_self _)

def preorder (schema : Schema) : List NodeId := schema.preorderFrom [] [schema.root]

section Walk

variable {schema : Schema} {met waiting : List NodeId} {id : NodeId}

@[simp] theorem preorderFrom_nil : schema.preorderFrom met [] = met := by
  rw [preorderFrom]

theorem preorderFrom_of_mem (h : id ∈ met) :
    schema.preorderFrom met (id :: waiting) = schema.preorderFrom met waiting := by
  rw [preorderFrom, dif_pos h]

theorem preorderFrom_of_notMem (h : id ∉ met) :
    schema.preorderFrom met (id :: waiting) =
      schema.preorderFrom (met ++ [id]) (schema.childrenOf id ++ waiting) := by
  rw [preorderFrom, dif_neg h]

theorem prefix_preorderFrom (schema : Schema) (met waiting : List NodeId) :
    met <+: schema.preorderFrom met waiting := by
  fun_induction preorderFrom schema met waiting with
  | case1 met => exact List.prefix_rfl
  | case2 met id waiting hmem ih => exact ih
  | case3 met id waiting hmem ih => exact (List.prefix_append met [id]).trans ih

theorem waiting_subset_preorderFrom (schema : Schema) (met waiting : List NodeId) :
    waiting ⊆ schema.preorderFrom met waiting := by
  fun_induction preorderFrom schema met waiting with
  | case1 met => exact List.nil_subset _
  | case2 met id waiting hmem ih =>
      exact List.cons_subset.mpr ⟨(prefix_preorderFrom schema met waiting).subset hmem, ih⟩
  | case3 met id waiting hmem ih =>
      refine List.cons_subset.mpr ⟨(prefix_preorderFrom schema _ _).subset (by simp), ?_⟩
      exact (List.append_subset.mp ih).2

theorem nodup_preorderFrom (h : met.Nodup) : (schema.preorderFrom met waiting).Nodup := by
  fun_induction preorderFrom schema met waiting with
  | case1 met => exact h
  | case2 met id waiting hmem ih => exact ih h
  | case3 met id waiting hmem ih =>
      apply ih
      rw [List.nodup_append]
      refine ⟨h, by simp, ?_⟩
      intro other hother last hlast heq
      obtain rfl : last = id := List.mem_singleton.mp hlast
      exact hmem (heq ▸ hother)

private theorem reachable_of_mem_preorderFrom (hmet : ∀ i ∈ met, schema.Reachable i)
    (hwaiting : ∀ i ∈ waiting, schema.Reachable i) :
    ∀ i ∈ schema.preorderFrom met waiting, schema.Reachable i := by
  fun_induction preorderFrom schema met waiting with
  | case1 met => exact hmet
  | case2 met id waiting hmem ih =>
      exact ih hmet fun i hi => hwaiting i (List.mem_cons_of_mem _ hi)
  | case3 met id waiting hmem ih =>
      have hid : schema.Reachable id := hwaiting id List.mem_cons_self
      apply ih
      · intro i hi
        rcases List.mem_append.mp hi with hold | hnew
        · exact hmet i hold
        · rw [List.mem_singleton.mp hnew]
          exact hid
      · intro i hi
        rcases List.mem_append.mp hi with hchild | hrest
        · exact hid.child hchild
        · exact hwaiting i (List.mem_cons_of_mem _ hrest)

private theorem preorderFrom_closed
    (hclosed : ∀ i ∈ met, ∀ child, schema.Refers i child → child ∈ met ∨ child ∈ waiting) :
    ∀ i ∈ schema.preorderFrom met waiting, ∀ child, schema.Refers i child →
      child ∈ schema.preorderFrom met waiting := by
  fun_induction preorderFrom schema met waiting with
  | case1 met =>
      intro i hi child hchild
      exact (hclosed i hi child hchild).resolve_right List.not_mem_nil
  | case2 met id waiting hmem ih =>
      apply ih
      intro i hi child hchild
      rcases hclosed i hi child hchild with hmet | hwaiting
      · exact Or.inl hmet
      · rcases List.mem_cons.mp hwaiting with rfl | hrest
        · exact Or.inl hmem
        · exact Or.inr hrest
  | case3 met id waiting hmem ih =>
      apply ih
      intro i hi child hchild
      rcases List.mem_append.mp hi with hold | hnew
      · rcases hclosed i hold child hchild with hmet | hwaiting
        · exact Or.inl (List.mem_append_left _ hmet)
        · rcases List.mem_cons.mp hwaiting with rfl | hrest
          · exact Or.inl (by simp)
          · exact Or.inr (List.mem_append_right _ hrest)
      · obtain rfl : i = id := List.mem_singleton.mp hnew
        exact Or.inr (List.mem_append_left _ hchild)

end Walk

theorem nodup_preorder (schema : Schema) : schema.preorder.Nodup :=
  nodup_preorderFrom List.nodup_nil

theorem root_mem_preorder (schema : Schema) : schema.root ∈ schema.preorder :=
  waiting_subset_preorderFrom schema [] [schema.root] List.mem_cons_self

theorem mem_preorder_of_refers {schema : Schema} {id child : NodeId} (h : id ∈ schema.preorder)
    (hchild : schema.Refers id child) : child ∈ schema.preorder :=
  preorderFrom_closed (by simp) id h child hchild

theorem mem_preorder_iff {schema : Schema} {id : NodeId} :
    id ∈ schema.preorder ↔ schema.Reachable id := by
  constructor
  · apply reachable_of_mem_preorderFrom
    · intro i hi
      cases hi
    · intro i hi
      rw [List.mem_singleton.mp hi]
      exact Reachable.root schema
  · intro h
    induction h with
    | refl => exact root_mem_preorder schema
    | tail _ hchild ih => exact mem_preorder_of_refers ih hchild

end Schema
end Conform
