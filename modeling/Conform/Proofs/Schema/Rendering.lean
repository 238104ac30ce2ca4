import Conform.Schema.Rendering

namespace Conform

def Node.describe (below : NodeId → String) : Node → String
  | .valueType kind => kind.name
  | .literal value => value.literal
  | .object name _ => name
  | .array element => below element ++ "[]"
  | .tuple elements => "[" ++ ",".intercalate (elements.map below) ++ "]"
  | .union members => "(" ++ " | ".intercalate (members.map below) ++ ")"
  | .intersection members => "(" ++ " & ".intercalate (members.map below) ++ ")"
  | .enum name values => s!"Enum: {name}({Scalar.list values})"

def Node.shown : Node → List NodeId
  | .array element => [element]
  | .tuple elements => elements
  | .union members => members
  | .intersection members => members
  | _ => []

theorem Node.shown_subset_children (node : Node) : node.shown ⊆ node.children := by
  cases node <;> simp [shown, children]

theorem Node.describe_congr {node : Node} {f g : NodeId → String}
    (same : ∀ child ∈ node.shown, f child = g child) : node.describe f = node.describe g := by
  have all : node.shown.map f = node.shown.map g := List.map_congr_left same
  cases node with
  | array element => simp only [describe, same element List.mem_cons_self]
  | tuple elements => exact congrArg (fun texts => "[" ++ ",".intercalate texts ++ "]") all
  | union members => exact congrArg (fun texts => "(" ++ " | ".intercalate texts ++ ")") all
  | intersection members => exact congrArg (fun texts => "(" ++ " & ".intercalate texts ++ ")") all
  | _ => rfl

namespace Schema

variable {schema : Schema}

theorem renderWithin_of_dangling {opened : List NodeId} {id : NodeId}
    (hnode : schema.node? id = none) : schema.renderWithin opened id = "<unknown>" := by
  rw [renderWithin]
  split
  · rfl
  · simp_all

theorem renderWithin_of_mem {opened : List NodeId} {id : NodeId} {node : Node}
    (hnode : schema.node? id = some node) (hopened : id ∈ opened) :
    schema.renderWithin opened id = "..." := by
  rw [renderWithin]
  split
  · simp_all
  · rw [dif_pos hopened]

theorem renderWithin_of_notMem {opened : List NodeId} {id : NodeId} {node : Node}
    (hnode : schema.node? id = some node) (hopened : id ∉ opened) :
    schema.renderWithin opened id = node.describe (schema.renderWithin (id :: opened)) := by
  rw [renderWithin]
  split
  · simp_all
  · rename_i other hother
    obtain rfl : node = other := Option.some.inj (hnode.symm.trans hother)
    rw [dif_neg hopened]
    cases node <;> rfl

end Schema
end Conform
