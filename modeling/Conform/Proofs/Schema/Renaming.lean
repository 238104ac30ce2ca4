import Conform.Proofs.Schema.DeclaredKeys
import Conform.Proofs.Schema.Rendering
import Mathlib.Data.Set.Function

namespace Conform

section Lists

variable {α β : Type} {f : α → β} {s : Set α} {l : List α} {a : α}

theorem mem_map_iff_of_injOn (injective : Set.InjOn f s) (hl : ∀ b ∈ l, b ∈ s) (ha : a ∈ s) :
    f a ∈ l.map f ↔ a ∈ l := by
  constructor
  · intro h
    obtain ⟨b, hb, heq⟩ := List.mem_map.mp h
    rw [← injective (hl b hb) ha heq]
    exact hb
  · exact List.mem_map_of_mem

theorem idxOf_map_of_injOn [DecidableEq α] [DecidableEq β] (injective : Set.InjOn f s)
    (hl : ∀ b ∈ l, b ∈ s) (ha : a ∈ s) : (l.map f).idxOf (f a) = l.idxOf a := by
  induction l with
  | nil => rfl
  | cons first rest ih =>
      obtain ⟨hfirst, hrest⟩ := List.forall_mem_cons.mp hl
      by_cases heq : first = a
      · rw [heq, List.map_cons, List.idxOf_cons_self, List.idxOf_cons_self]
      · have apart : f first ≠ f a := fun h => heq (injective hfirst ha h)
        rw [List.map_cons, List.idxOf_cons, List.idxOf_cons, beq_false_of_ne apart,
          beq_false_of_ne heq, cond_false, cond_false, ih hrest]

end Lists

def Property.rename (rename : NodeId → NodeId) (property : Property) : Property :=
  { property with definition := rename property.definition }

namespace Node

def rename (rename : NodeId → NodeId) : Node → Node
  | .valueType kind => .valueType kind
  | .literal value => .literal value
  | .object name properties =>
      .object name (properties.map fun (key, property) => (key, property.rename rename))
  | .array element => .array (rename element)
  | .tuple elements => .tuple (elements.map rename)
  | .union members => .union (members.map rename)
  | .intersection members => .intersection (members.map rename)
  | .enum name values => .enum name values

variable {below : NodeId → String}

@[simp] theorem rename_id (node : Node) : node.rename id = node := by
  cases node with
  | object name properties => exact congrArg (Node.object name) (List.map_id properties)
  | tuple elements => exact congrArg Node.tuple (List.map_id elements)
  | union members => exact congrArg Node.union (List.map_id members)
  | intersection members => exact congrArg Node.intersection (List.map_id members)
  | _ => rfl

@[simp] theorem children_rename (rename : NodeId → NodeId) (node : Node) :
    (node.rename rename).children = node.children.map rename := by
  cases node with
  | object name properties =>
      rw [Node.rename, children, children, List.map_map, List.map_map]
      rfl
  | _ => rfl

theorem describe_rename (rename : NodeId → NodeId) (node : Node) :
    (node.rename rename).describe below = node.describe (below ∘ rename) := by
  cases node with
  | tuple elements => rw [Node.rename, describe, describe, List.map_map]
  | union members => rw [Node.rename, describe, describe, List.map_map]
  | intersection members => rw [Node.rename, describe, describe, List.map_map]
  | _ => rfl

end Node

namespace Schema

theorem addKeys_rename (rename : NodeId → NodeId) (keys : List String)
    (properties : List (String × Property)) :
    addKeys keys (properties.map fun (key, property) => (key, property.rename rename)) =
      addKeys keys properties := by
  rw [addKeys, List.foldl_map]
  rfl

/-- As far as the handles `inside` lead, `other` has the nodes of `schema`, each behind the new
handle in place of the old one. -/
structure Copies (schema other : Schema) (rename : NodeId → NodeId) (inside : Set NodeId) :
    Prop where
  closed : ∀ id ∈ inside, ∀ child, schema.Refers id child → child ∈ inside
  injective : Set.InjOn rename inside
  node?_eq : ∀ id ∈ inside, other.node? (rename id) = (schema.node? id).map (Node.rename rename)

variable {schema other : Schema} {rename : NodeId → NodeId} {inside : Set NodeId}

namespace Copies

theorem childrenOf_eq (copies : schema.Copies other rename inside) {id : NodeId}
    (hid : id ∈ inside) : other.childrenOf (rename id) = (schema.childrenOf id).map rename := by
  rw [childrenOf, childrenOf, copies.node?_eq id hid]
  cases schema.node? id with
  | none => rfl
  | some node => exact node.children_rename rename

theorem dangling (copies : schema.Copies other rename inside) {id : NodeId} (hid : id ∈ inside)
    (hnode : schema.Dangling id) : other.Dangling (rename id) := by
  rw [Dangling, copies.node?_eq id hid, show schema.node? id = none from hnode, Option.map_none]

theorem node?_of_node (copies : schema.Copies other rename inside) {id : NodeId} {node : Node}
    (hid : id ∈ inside) (hnode : schema.node? id = some node) :
    other.node? (rename id) = some (node.rename rename) := by
  rw [copies.node?_eq id hid, hnode, Option.map_some]

theorem children_mem (copies : schema.Copies other rename inside) {id : NodeId} {node : Node}
    (hid : id ∈ inside) (hnode : schema.node? id = some node) :
    ∀ child ∈ node.children, child ∈ inside :=
  fun child hchild => copies.closed id hid child (refers_of_node hnode hchild)

theorem preorderFrom_eq (copies : schema.Copies other rename inside) {met waiting : List NodeId}
    (hmet : ∀ id ∈ met, id ∈ inside) (hwaiting : ∀ id ∈ waiting, id ∈ inside) :
    other.preorderFrom (met.map rename) (waiting.map rename) =
      (schema.preorderFrom met waiting).map rename := by
  fun_induction preorderFrom schema met waiting with
  | case1 met => exact preorderFrom_nil
  | case2 met id waiting hmem ih =>
      rw [List.map_cons, preorderFrom_of_mem (List.mem_map_of_mem hmem)]
      exact ih hmet (List.forall_mem_cons.mp hwaiting).2
  | case3 met id waiting hmem ih =>
      obtain ⟨hid, hrest⟩ := List.forall_mem_cons.mp hwaiting
      have new : rename id ∉ met.map rename :=
        mt (mem_map_iff_of_injOn copies.injective hmet hid).mp hmem
      rw [List.map_cons, preorderFrom_of_notMem new, copies.childrenOf_eq hid,
        ← List.map_singleton, ← List.map_append, ← List.map_append]
      refine ih (List.forall_mem_append.mpr ⟨hmet, List.forall_mem_singleton.mpr hid⟩)
        (List.forall_mem_append.mpr ⟨fun child hchild => ?_, hrest⟩)
      exact copies.closed id hid child hchild

theorem renderWithin_eq (copies : schema.Copies other rename inside) {opened : List NodeId}
    {id : NodeId} (hopened : ∀ i ∈ opened, i ∈ inside) (hid : id ∈ inside) :
    other.renderWithin (opened.map rename) (rename id) = schema.renderWithin opened id := by
  cases hnode : schema.node? id with
  | none =>
      rw [renderWithin_of_dangling hnode, renderWithin_of_dangling (copies.dangling hid hnode)]
  | some node =>
      have there := copies.node?_of_node hid hnode
      by_cases hmem : id ∈ opened
      · rw [renderWithin_of_mem hnode hmem,
          renderWithin_of_mem there (List.mem_map_of_mem hmem)]
      · have new : rename id ∉ opened.map rename :=
          mt (mem_map_iff_of_injOn copies.injective hopened hid).mp hmem
        rw [renderWithin_of_notMem hnode hmem, renderWithin_of_notMem there new,
          Node.describe_rename]
        have hopen : ∀ i ∈ id :: opened, i ∈ inside := List.forall_mem_cons.mpr ⟨hid, hopened⟩
        refine Node.describe_congr fun child hchild => ?_
        have hinside := copies.children_mem hid hnode child (node.shown_subset_children hchild)
        exact copies.renderWithin_eq hopen hinside
termination_by schema.unvisited opened
decreasing_by exact unvisited_cons_lt hnode hmem

theorem render_eq (copies : schema.Copies other rename inside) {id : NodeId} (hid : id ∈ inside) :
    other.render (rename id) = schema.render id := by
  have none : ∀ i ∈ ([] : List NodeId), i ∈ inside := List.forall_mem_nil _
  exact copies.renderWithin_eq none hid

theorem combinator (copies : schema.Copies other rename inside) {id : NodeId}
    {members : List NodeId} (hid : id ∈ inside)
    (hnode : schema.node? id = some (.union members) ∨
      schema.node? id = some (.intersection members)) :
    other.node? (rename id) = some (.union (members.map rename)) ∨
      other.node? (rename id) = some (.intersection (members.map rename)) :=
  hnode.imp (copies.node?_of_node hid) (copies.node?_of_node hid)

theorem collectKeys_eq (copies : schema.Copies other rename inside) {keys : List String}
    {entered waiting : List NodeId} (hentered : ∀ id ∈ entered, id ∈ inside)
    (hwaiting : ∀ id ∈ waiting, id ∈ inside) :
    other.collectKeys keys (entered.map rename) (waiting.map rename) =
      schema.collectKeys keys entered waiting := by
  fun_induction collectKeys schema keys entered waiting with
  | case1 keys entered => exact collectKeys_nil
  | case2 keys entered member waiting name properties hnode ih =>
      obtain ⟨hmember, hrest⟩ := List.forall_mem_cons.mp hwaiting
      rw [List.map_cons, collectKeys_of_object (copies.node?_of_node hmember hnode),
        addKeys_rename]
      exact ih hentered hrest
  | case3 keys entered member waiting members hnode hmem ih =>
      obtain ⟨hmember, hrest⟩ := List.forall_mem_cons.mp hwaiting
      have there := copies.combinator hmember (.inl hnode)
      rw [List.map_cons, collectKeys_of_entered (List.mem_map_of_mem hmem) there]
      exact ih hentered hrest
  | case4 keys entered member waiting members hnode hmem ih =>
      obtain ⟨hmember, hrest⟩ := List.forall_mem_cons.mp hwaiting
      have new := mt (mem_map_iff_of_injOn copies.injective hentered hmember).mp hmem
      rw [List.map_cons, collectKeys_of_combinator new (copies.combinator hmember (.inl hnode)),
        ← List.map_append]
      refine ih (List.forall_mem_cons.mpr ⟨hmember, hentered⟩) ?_
      exact List.forall_mem_append.mpr ⟨copies.children_mem hmember hnode, hrest⟩
  | case5 keys entered member waiting members hnode hmem ih =>
      obtain ⟨hmember, hrest⟩ := List.forall_mem_cons.mp hwaiting
      have there := copies.combinator hmember (.inr hnode)
      rw [List.map_cons, collectKeys_of_entered (List.mem_map_of_mem hmem) there]
      exact ih hentered hrest
  | case6 keys entered member waiting members hnode hmem ih =>
      obtain ⟨hmember, hrest⟩ := List.forall_mem_cons.mp hwaiting
      have new := mt (mem_map_iff_of_injOn copies.injective hentered hmember).mp hmem
      rw [List.map_cons, collectKeys_of_combinator new (copies.combinator hmember (.inr hnode)),
        ← List.map_append]
      refine ih (List.forall_mem_cons.mpr ⟨hmember, hentered⟩) ?_
      exact List.forall_mem_append.mpr ⟨copies.children_mem hmember hnode, hrest⟩
  | case7 keys entered member waiting hobject hunion hintersection ih =>
      obtain ⟨hmember, hrest⟩ := List.forall_mem_cons.mp hwaiting
      rw [List.map_cons, collectKeys_of_other]
      · exact ih hentered hrest
      all_goals
        rw [copies.node?_eq member hmember]
        cases hnode : schema.node? member with
        | none => simp
        | some node => cases node <;> simp_all [Node.rename]

theorem declaredKeys_eq (copies : schema.Copies other rename inside) {id : NodeId}
    {members : List NodeId} (hid : id ∈ inside) (hmembers : ∀ m ∈ members, m ∈ inside) :
    other.declaredKeys (rename id) (members.map rename) = schema.declaredKeys id members := by
  have itself : ∀ i ∈ [id], i ∈ inside := List.forall_mem_singleton.mpr hid
  exact copies.collectKeys_eq itself hmembers

end Copies

/-- `other` is the same schema as far as the root leads, with other handles for the nodes. It may
hold anything else besides. -/
structure Renames (schema other : Schema) (rename : NodeId → NodeId) : Prop where
  root_eq : other.root = rename schema.root
  injective : Set.InjOn rename {id | schema.Reachable id}
  node?_eq : ∀ id, schema.Reachable id →
    other.node? (rename id) = (schema.node? id).map (Node.rename rename)

namespace Renames

theorem copies (renames : schema.Renames other rename) :
    schema.Copies other rename {id | schema.Reachable id} where
  closed := fun _ reached _ hchild => reached.child hchild
  injective := renames.injective
  node?_eq := renames.node?_eq

theorem preorder_eq (renames : schema.Renames other rename) :
    other.preorder = schema.preorder.map rename := by
  rw [preorder, renames.root_eq]
  exact renames.copies.preorderFrom_eq (List.forall_mem_nil _)
    (List.forall_mem_singleton.mpr (Reachable.root schema))

theorem render_root_eq (renames : schema.Renames other rename) :
    other.render other.root = schema.render schema.root := by
  rw [renames.root_eq]
  exact renames.copies.render_eq (Reachable.root schema)

theorem dangling_iff (renames : schema.Renames other rename) {id : NodeId}
    (reached : schema.Reachable id) : other.Dangling (rename id) ↔ schema.Dangling id := by
  rw [Dangling, Dangling, renames.node?_eq id reached, Option.map_eq_none_iff]

end Renames
end Schema
end Conform
