import Conform.Proofs.Pointwise
import Conform.Proofs.Schema.DeclaredKeys

namespace Conform

open Relation

/-- The same node, except that what it declares may come in another order. The elements of a tuple
keep theirs. -/
inductive Node.Reordered : Node → Node → Prop
  | valueType (kind : ValueKind) : Reordered (.valueType kind) (.valueType kind)
  | literal (value : Scalar) : Reordered (.literal value) (.literal value)
  | object {name : String} {properties properties' : List (String × Property)}
      (permuted : properties'.Perm properties) :
      Reordered (.object name properties) (.object name properties')
  | array (element : NodeId) : Reordered (.array element) (.array element)
  | tuple (elements : List NodeId) : Reordered (.tuple elements) (.tuple elements)
  | union {members members' : List NodeId} (permuted : members'.Perm members) :
      Reordered (.union members) (.union members')
  | intersection {members members' : List NodeId} (permuted : members'.Perm members) :
      Reordered (.intersection members) (.intersection members')
  | enum {name : String} {values values' : List Scalar} (permuted : values'.Perm values) :
      Reordered (.enum name values) (.enum name values')

namespace Node

variable {node node' : Node}

theorem Reordered.children_perm (h : node.Reordered node') :
    node'.children.Perm node.children := by
  cases h with
  | object permuted => exact permuted.map _
  | union permuted => exact permuted
  | intersection permuted => exact permuted
  | _ => exact .refl _

theorem Reordered.combined_perm (h : node.Reordered node') :
    node'.combined.Perm node.combined := by
  cases h with
  | union permuted => exact permuted
  | intersection permuted => exact permuted
  | _ => exact .refl _

theorem Reordered.keys_perm (h : node.Reordered node') : node'.keys.Perm node.keys := by
  cases h with
  | object permuted => exact permuted.map _
  | _ => exact .refl _

end Node

namespace Schema

def Reordered (schema other : Schema) : Prop :=
  other.root = schema.root ∧ List.Forall₂ Node.Reordered schema.nodes other.nodes

variable {schema other : Schema}

theorem Reordered.node?_rel (reordered : schema.Reordered other) (id : NodeId) :
    Option.Rel Node.Reordered (schema.node? id) (other.node? id) :=
  getElem?_rel_of_forall₂ reordered.2 id.index

theorem Reordered.exists_node (reordered : schema.Reordered other) {id : NodeId} {node : Node}
    (hnode : schema.node? id = some node) :
    ∃ node', other.node? id = some node' ∧ node.Reordered node' := by
  have related := reordered.node?_rel id
  rw [hnode] at related
  generalize other.node? id = found at related
  cases related with
  | some related => exact ⟨_, rfl, related⟩

theorem Reordered.exists_node_iff (reordered : schema.Reordered other) {p : Node → Prop}
    (agree : ∀ {node node'}, node.Reordered node' → (p node' ↔ p node)) (id : NodeId) :
    (∃ node, other.node? id = some node ∧ p node) ↔
      ∃ node, schema.node? id = some node ∧ p node := by
  have related := reordered.node?_rel id
  generalize schema.node? id = found at related
  generalize other.node? id = found' at related
  cases related with
  | none => simp
  | some related => simpa using agree related

theorem Reordered.dangling_eq (reordered : schema.Reordered other) :
    other.Dangling = schema.Dangling := by
  refine funext fun id => propext (not_iff_not.mp ?_)
  have same := reordered.exists_node_iff (p := fun _ => True) (fun _ => Iff.rfl) id
  simp only [and_true, ← Option.ne_none_iff_exists'] at same
  exact same

theorem Reordered.refers_eq (reordered : schema.Reordered other) :
    other.Refers = schema.Refers := by
  refine funext fun id => funext fun child => propext ?_
  rw [refers_iff, refers_iff]
  exact reordered.exists_node_iff (fun related => related.children_perm.mem_iff) id

theorem Reordered.combines_eq (reordered : schema.Reordered other) :
    other.Combines = schema.Combines :=
  funext fun id => funext fun _ => propext <|
    reordered.exists_node_iff (fun related => related.combined_perm.mem_iff) id

theorem Reordered.declares_eq (reordered : schema.Reordered other) :
    other.Declares = schema.Declares :=
  funext fun id => funext fun _ => propext <|
    reordered.exists_node_iff (fun related => related.keys_perm.mem_iff) id

theorem Reordered.reachable_eq (reordered : schema.Reordered other) :
    other.Reachable = schema.Reachable := by
  refine funext fun id => ?_
  rw [Reachable, Reachable, reordered.refers_eq, reordered.1]

theorem Reordered.keysBelow_eq (reordered : schema.Reordered other) (id : NodeId) :
    other.keysBelow id = schema.keysBelow id := by
  rw [keysBelow, keysBelow, reordered.combines_eq, reordered.declares_eq]

theorem Reordered.preorder_perm (reordered : schema.Reordered other) :
    other.preorder.Perm schema.preorder := by
  rw [List.perm_ext_iff_of_nodup other.nodup_preorder schema.nodup_preorder]
  intro id
  rw [mem_preorder_iff, mem_preorder_iff, reordered.reachable_eq]

end Schema
end Conform
