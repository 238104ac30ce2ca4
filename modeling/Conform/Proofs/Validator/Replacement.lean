import Conform.Proofs.Schema.DeclaredKeys
import Conform.Proofs.Validator.Compilation

namespace Conform

open Relation

namespace Schema

def replace (schema : Schema) (id : NodeId) (node : Node) : Schema :=
  { schema with nodes := schema.nodes.set id.index node }

variable {schema : Schema} {id other : NodeId} {old node : Node}

theorem node?_replace_self (hold : schema.node? id = some old) (node : Node) :
    (schema.replace id node).node? id = some node :=
  List.getElem?_set_self (index_lt_of_node?_eq_some hold)

theorem node?_replace_of_ne (h : other ≠ id) :
    (schema.replace id node).node? other = schema.node? other := by
  have hindex : id.index ≠ other.index := fun heq => h (congrArg NodeId.mk heq.symm)
  exact List.getElem?_set_ne hindex

theorem dangling_replace_iff (hold : schema.node? id = some old) :
    (schema.replace id node).Dangling other ↔ schema.Dangling other := by
  by_cases h : other = id
  · simp [Dangling, h, hold, node?_replace_self hold node]
  · rw [Dangling, Dangling, node?_replace_of_ne h]

theorem reachable_of_replace (hold : schema.node? id = some old)
    (reaches : ∀ child ∈ node.children, ReflTransGen schema.Refers id child)
    (h : (schema.replace id node).Reachable other) : schema.Reachable other := by
  induction h with
  | refl => exact Reachable.root schema
  | @tail parent child _ hrefers ih =>
      by_cases hparent : parent = id
      · subst hparent
        rw [Refers, childrenOf_of_node (node?_replace_self hold node)] at hrefers
        exact ReflTransGen.trans ih (reaches child hrefers)
      · rw [Refers, childrenOf, node?_replace_of_ne hparent] at hrefers
        exact ih.child hrefers

theorem combines_replace_self_iff (hold : schema.node? id = some old) :
    (schema.replace id node).Combines id other ↔ other ∈ node.combined := by
  simp [Combines, node?_replace_self hold node]

theorem combines_replace_iff_of_ne {m : NodeId} (h : other ≠ id) :
    (schema.replace id node).Combines other m ↔ schema.Combines other m := by
  simp only [Combines, node?_replace_of_ne h]

theorem transGen_combines_of_replace (hold : schema.node? id = some old)
    (combines : ∀ m ∈ node.combined, TransGen schema.Combines id m) {m : NodeId}
    (h : TransGen (schema.replace id node).Combines other m) :
    TransGen schema.Combines other m := by
  have step : ∀ {above below}, (schema.replace id node).Combines above below →
      TransGen schema.Combines above below := by
    intro above below hstep
    by_cases habove : above = id
    · subst habove
      exact combines below ((combines_replace_self_iff hold).mp hstep)
    · exact .single ((combines_replace_iff_of_ne habove).mp hstep)
  induction h with
  | single hstep => exact step hstep
  | tail _ hstep ih => exact ih.trans (step hstep)

theorem exists_compile_replace (hold : schema.node? id = some old) (node : Node)
    (reaches : ∀ child ∈ node.children, ReflTransGen schema.Refers id child)
    (combines : ∀ m ∈ node.combined, TransGen schema.Combines id m)
    (compiled : ∃ validator, schema.compile = .ok validator) :
    ∃ validator, (schema.replace id node).compile = .ok validator := by
  obtain ⟨closed, acyclic⟩ := exists_validator_iff.mp compiled
  refine exists_validator_iff.mpr ⟨?_, ?_⟩
  · intro other reached dangling
    refine closed other (reachable_of_replace hold reaches reached) ?_
    exact (dangling_replace_iff hold).mp dangling
  · rintro other ⟨reached, cycle⟩
    exact acyclic other ⟨reachable_of_replace hold reaches reached,
      transGen_combines_of_replace hold combines cycle⟩

/-! Keys. -/

private theorem keysFrom_subset {first second : Schema}
    (same : ∀ other ≠ id, second.node? other = first.node? other)
    (own : ∀ key, first.Declares id key → key ∈ second.keysFrom id)
    (members : ∀ m, first.Combines id m → second.keysFrom m ⊆ second.keysFrom id)
    (start : NodeId) : first.keysFrom start ⊆ second.keysFrom start := by
  rintro key ⟨object, hpath, hdeclares⟩
  induction hpath using ReflTransGen.head_induction_on with
  | refl =>
      by_cases hobject : object = id
      · exact hobject ▸ own key (hobject ▸ hdeclares)
      · refine ⟨object, .refl, ?_⟩
        rw [Declares, same object hobject]
        exact hdeclares
  | @head above below hstep _ ih =>
      by_cases habove : above = id
      · subst habove
        exact members below hstep ih
      · refine mem_keysFrom_of_combines ?_ ih
        rw [Combines, same above habove]
        exact hstep

theorem keysFrom_replace (hold : schema.node? id = some old) (node : Node)
    (own : ∀ key ∈ node.keys, key ∈ schema.keysFrom id)
    (members : ∀ m ∈ node.combined, schema.keysFrom m ⊆ schema.keysFrom id)
    (own' : ∀ key ∈ old.keys, key ∈ (schema.replace id node).keysFrom id)
    (members' : ∀ m ∈ old.combined,
      (schema.replace id node).keysFrom m ⊆ (schema.replace id node).keysFrom id)
    (start : NodeId) : (schema.replace id node).keysFrom start = schema.keysFrom start := by
  have hnew := node?_replace_self hold node
  apply Set.Subset.antisymm
  · exact keysFrom_subset (fun other h => (node?_replace_of_ne h).symm)
      (fun key h => own key ((declares_iff_of_node hnew).mp h))
      (fun m h => members m ((combines_iff_of_node hnew).mp h)) start
  · exact keysFrom_subset (fun other h => node?_replace_of_ne h)
      (fun key h => own' key ((declares_iff_of_node hold).mp h))
      (fun m h => members' m ((combines_iff_of_node hold).mp h)) start

theorem keysBelow_replace_of_ne
    (same : ∀ start, (schema.replace id node).keysFrom start = schema.keysFrom start)
    (h : other ≠ id) : (schema.replace id node).keysBelow other = schema.keysBelow other := by
  ext key
  simp only [mem_keysBelow_iff, same]
  exact exists_congr fun m => and_congr_left fun _ => combines_replace_iff_of_ne h

end Schema
end Conform
