import Conform.Proofs.Schema.Reachability
import Conform.Proofs.Schema.Rendering
import Mathlib.Logic.Relation

/-!
What descriptions leave out. They show an object by its name alone, so nothing behind an object can
be told from them. Beyond that they leave out a node only where it comes again on a cycle: without
one they are what a walk finds that does not note which nodes are open.
-/

namespace Conform

open Relation

namespace Node

/-- A node as descriptions see it, an object without its properties. -/
def facade : Node → Node
  | .object name _ => .object name []
  | node => node

@[simp] theorem describe_facade (node : Node) (below : NodeId → String) :
    node.facade.describe below = node.describe below := by
  cases node <;> rfl

end Node

namespace Schema

variable {schema other : Schema} {opened : List NodeId} {id : NodeId}

def facade? (schema : Schema) (id : NodeId) : Option Node := (schema.node? id).map Node.facade

def Shows (schema : Schema) (id child : NodeId) : Prop :=
  ∃ node, schema.node? id = some node ∧ child ∈ node.shown

/-! Nothing behind an object. -/

theorem renderWithin_eq_of_facades {opened : List NodeId} {id : NodeId}
    (same : ∀ i, ReflTransGen schema.Shows id i → other.facade? i = schema.facade? i) :
    other.renderWithin opened id = schema.renderWithin opened id := by
  have here := same id .refl
  rw [facade?, facade?] at here
  cases hnode : schema.node? id with
  | none =>
      rw [hnode, Option.map_none, Option.map_eq_none_iff] at here
      rw [renderWithin_of_dangling hnode, renderWithin_of_dangling here]
  | some node =>
      rw [hnode, Option.map_some, Option.map_eq_some_iff] at here
      obtain ⟨node', hnode', hfacade⟩ := here
      by_cases hopened : id ∈ opened
      · rw [renderWithin_of_mem hnode hopened, renderWithin_of_mem hnode' hopened]
      · rw [renderWithin_of_notMem hnode hopened, renderWithin_of_notMem hnode' hopened,
          ← node'.describe_facade, hfacade, node.describe_facade]
        refine Node.describe_congr fun child hchild => ?_
        exact renderWithin_eq_of_facades fun i hi => same i (.head ⟨node, hnode, hchild⟩ hi)
termination_by schema.unvisited opened
decreasing_by exact unvisited_cons_lt hnode hopened

/-! Nothing but cycles. -/

/-- Describing `start` comes to `id` while the nodes `opened` are being described around it. -/
inductive Visits (schema : Schema) (start : NodeId) : List NodeId → NodeId → Prop
  | start : Visits schema start [] start
  | shown {opened : List NodeId} {id child : NodeId} {node : Node}
      (before : Visits schema start opened id) (hnode : schema.node? id = some node)
      (new : id ∉ opened) (hchild : child ∈ node.shown) : Visits schema start (id :: opened) child

def Unwinds (schema : Schema) (id : NodeId) : Prop :=
  ∀ i, ReflTransGen schema.Shows id i → ¬ TransGen schema.Shows i i

namespace Visits

variable {start : NodeId}

theorem reaches (visits : schema.Visits start opened id) : ReflTransGen schema.Shows start id := by
  induction visits with
  | start => exact .refl
  | shown _ hnode _ hchild ih => exact ih.tail ⟨_, hnode, hchild⟩

theorem opened_reach (visits : schema.Visits start opened id) :
    ∀ o ∈ opened, TransGen schema.Shows o id := by
  induction visits with
  | start => exact List.forall_mem_nil _
  | shown _ hnode _ hchild ih =>
      have last : schema.Shows _ _ := ⟨_, hnode, hchild⟩
      exact List.forall_mem_cons.mpr ⟨.single last, fun o ho => (ih o ho).tail last⟩

theorem notMem_of_unwinds (visits : schema.Visits start opened id)
    (unwinds : schema.Unwinds start) : id ∉ opened :=
  fun hmem => unwinds id visits.reaches (visits.opened_reach id hmem)

end Visits

/-- Describing a node and noting nothing on the way comes to an end, with `text`. -/
inductive PlainlyRenders (schema : Schema) : NodeId → String → Prop
  | dangling {id : NodeId} (hnode : schema.Dangling id) : PlainlyRenders schema id "<unknown>"
  | node {id : NodeId} {node : Node} {below : NodeId → String} (hnode : schema.node? id = some node)
      (each : ∀ child ∈ node.shown, PlainlyRenders schema child (below child)) :
      PlainlyRenders schema id (node.describe below)

theorem PlainlyRenders.unique {text text' : String} (ended : schema.PlainlyRenders id text)
    (ended' : schema.PlainlyRenders id text') : text' = text := by
  induction ended generalizing text' with
  | dangling hnode =>
      cases ended' with
      | dangling _ => rfl
      | node hnode' _ => cases hnode.symm.trans hnode'
  | node hnode _ ih =>
      cases ended' with
      | dangling hnode' => cases hnode.symm.trans hnode'
      | node hnode' each' =>
          cases hnode.symm.trans hnode'
          exact Node.describe_congr fun child hchild => ih child hchild (each' child hchild)

theorem PlainlyRenders.acc {text : String} (ended : schema.PlainlyRenders id text) :
    Acc (fun child id => schema.Shows id child) id := by
  induction ended with
  | dangling hnode => exact Acc.intro _ fun child ⟨_, hnode', _⟩ => by cases hnode.symm.trans hnode'
  | node hnode _ ih =>
      refine Acc.intro _ fun child ⟨node', hnode', hchild⟩ => ?_
      cases hnode.symm.trans hnode'
      exact ih child hchild

theorem PlainlyRenders.unwinds {text : String} (ended : schema.PlainlyRenders id text) :
    schema.Unwinds id := by
  have noCycle : ∀ i, Acc (TransGen fun child id => schema.Shows id child) i →
      ¬ TransGen (fun child id => schema.Shows id child) i i := by
    intro i tree
    induction tree with
    | intro i _ ih => exact fun cycle => ih i cycle cycle
  intro i reached
  have below : Acc (fun child id => schema.Shows id child) i := by
    induction reached with
    | refl => exact ended.acc
    | tail _ last ih => exact ih.inv last
  exact fun cycle => noCycle i below.transGen (transGen_swap.mp cycle)

/-- Without cycles a node that is open never comes again, and the stack can be left out. -/
theorem plainlyRenders_of_unwinds {opened : List NodeId} {id : NodeId}
    (above : ∀ o ∈ opened, TransGen schema.Shows o id) (unwinds : schema.Unwinds id) :
    schema.PlainlyRenders id (schema.renderWithin opened id) := by
  cases hnode : schema.node? id with
  | none =>
      rw [renderWithin_of_dangling hnode]
      exact .dangling hnode
  | some node =>
      have hopened : id ∉ opened := fun hmem => unwinds id .refl (above id hmem)
      rw [renderWithin_of_notMem hnode hopened]
      refine .node hnode fun child hchild => ?_
      have step : schema.Shows id child := ⟨node, hnode, hchild⟩
      refine plainlyRenders_of_unwinds ?_ fun i hi => unwinds i (.head step hi)
      exact List.forall_mem_cons.mpr ⟨.single step, fun o ho => (above o ho).tail step⟩
termination_by schema.unvisited opened
decreasing_by exact unvisited_cons_lt hnode hopened

/-- A description tells nothing that lies behind an object. Every handle inside shows as `<unknown>`
if it refers to nothing, by what its node is, or as `...` on a cycle that leads back to it. Where
there are no cycles none is left out, and there alone a walk without a stack comes to an end, with
the same description. -/
theorem render_elides_cycles_only (schema : Schema) (id : NodeId) :
    (∀ other : Schema, (∀ i, ReflTransGen schema.Shows id i → other.facade? i = schema.facade? i) →
      other.render id = schema.render id) ∧
    (∀ opened i, schema.Visits id opened i →
      (schema.Dangling i ∧ schema.renderWithin opened i = "<unknown>") ∨
      (∃ node, schema.node? i = some node ∧
        schema.renderWithin opened i = node.describe (schema.renderWithin (i :: opened))) ∨
      (i ∈ opened ∧ TransGen schema.Shows i i ∧ schema.renderWithin opened i = "...")) ∧
    (schema.Unwinds id → ∀ opened i, schema.Visits id opened i → i ∉ opened) ∧
    ∀ text, schema.PlainlyRenders id text ↔ schema.Unwinds id ∧ text = schema.render id := by
  have plain : schema.Unwinds id → schema.PlainlyRenders id (schema.render id) :=
    plainlyRenders_of_unwinds (List.forall_mem_nil _)
  refine ⟨fun other same => renderWithin_eq_of_facades same, fun opened i visits => ?_,
    fun unwinds opened i visits => visits.notMem_of_unwinds unwinds,
    fun text => ⟨fun ended => ?_, ?_⟩⟩
  · cases hnode : schema.node? i with
    | none => exact .inl ⟨hnode, renderWithin_of_dangling hnode⟩
    | some node =>
        by_cases hmem : i ∈ opened
        · exact .inr (.inr ⟨hmem, visits.opened_reach i hmem, renderWithin_of_mem hnode hmem⟩)
        · exact .inr (.inl ⟨node, rfl, renderWithin_of_notMem hnode hmem⟩)
  · exact ⟨ended.unwinds, (plain ended.unwinds).unique ended⟩
  · rintro ⟨unwinds, rfl⟩
    exact plain unwinds

end Schema
end Conform
