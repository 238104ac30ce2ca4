import Conform.Proofs.Schema.Renaming
import Conform.Proofs.Validator.Compilation
import Conform.Validator.Validation

namespace Conform

def BuildFault.rename (rename : NodeId → NodeId) : BuildFault → BuildFault
  | .unknownNode id => .unknownNode (rename id)
  | .unresolved id => .unresolved (rename id)
  | .combinatorCycle id => .combinatorCycle (rename id)

namespace Arena

def renameOrigins (arena : Arena) (rename : NodeId → NodeId) : Arena :=
  arena.map (Prod.map rename id)

theorem outline_renameOrigins (arena : Arena) (rename : NodeId → NodeId) :
    (arena.renameOrigins rename).outline = arena.outline.map (Prod.map rename id) := by
  rw [outline, outline, renameOrigins, List.map_map, List.map_map]
  rfl

theorem checks_renameOrigins (arena : Arena) (rename : NodeId → NodeId) :
    (arena.renameOrigins rename).checks = arena.checks := by
  rw [checks, renameOrigins, List.map_map]
  rfl

end Arena

theorem Validator.eq_of_parts {validator other : Validator}
    (checks : validator.checks = other.checks) (root : validator.root = other.root)
    (rootType : validator.rootType = other.rootType) : validator = other := by
  cases validator
  cases other
  simp_all

namespace Schema

variable {schema other : Schema} {rename : NodeId → NodeId} {inside : Set NodeId}

theorem Copies.ofNode_eq (copies : schema.Copies other rename inside) {order : List NodeId}
    {id : NodeId} {node : Node} (horder : ∀ i ∈ order, i ∈ inside) (hid : id ∈ inside)
    (hnode : schema.node? id = some node) :
    Check.ofNode other (order.map rename) (rename id) (node.rename rename) =
      Check.ofNode schema order id node := by
  have hchildren := copies.children_mem hid hnode
  have number : ∀ child ∈ node.children,
      (order.map rename).idxOf (rename child) = order.idxOf child :=
    fun child hchild => idxOf_map_of_injOn copies.injective horder (hchildren child hchild)
  have numbers : (node.children.map rename).map (order.map rename).idxOf =
      node.children.map order.idxOf := by
    rw [List.map_map]
    exact List.map_congr_left number
  cases node with
  | valueType kind => rfl
  | literal value => rfl
  | enum name values => rfl
  | array element => exact congrArg Check.array (number element List.mem_cons_self)
  | tuple elements => exact congrArg₂ Check.tuple numbers (copies.render_eq hid)
  | union members =>
      refine congrArg₂ Check.union numbers (congrArg _ ?_)
      rw [List.map_map]
      exact List.map_congr_left fun m hm => copies.render_eq (hchildren m hm)
  | intersection members =>
      exact congrArg₂ Check.intersection numbers (copies.declaredKeys_eq hid hchildren)
  | object name properties =>
      refine congrArg (Check.object name) ?_
      rw [List.map_map]
      refine List.map_congr_left fun entry hentry => ?_
      have hchild : entry.2.definition ∈ (Node.object name properties).children :=
        List.mem_map_of_mem hentry
      simp only [Function.comp_apply, propertyCheck, Property.rename, number _ hchild,
        copies.render_eq (hchildren _ hchild)]

namespace Renames

theorem images_eq (renames : schema.Renames other rename) :
    other.images = schema.images.renameOrigins rename := by
  have reached : ∀ id ∈ schema.preorder, id ∈ {id | schema.Reachable id} :=
    fun id hid => mem_preorder_iff.mp hid
  rw [images, images, Arena.renameOrigins, renames.preorder_eq, List.filterMap_map,
    List.map_filterMap]
  refine List.filterMap_congr fun id hid => ?_
  rw [Function.comp_apply, imageOf, imageOf, renames.node?_eq id (reached id hid),
    renames.preorder_eq]
  cases hnode : schema.node? id with
  | none => rfl
  | some node =>
      simp only [Option.map_some]
      rw [renames.copies.ofNode_eq reached (reached id hid) hnode]
      rfl

theorem searchCycles_eq (renames : schema.Renames other rename) :
    other.images.searchCycles = schema.images.searchCycles.mapError rename := by
  refine Arena.searchCycles_of_outline_eq ?_
  rw [renames.images_eq, Arena.outline_renameOrigins]

theorem compile_eq (renames : schema.Renames other rename) :
    other.compile = schema.compile.mapError (BuildFault.rename rename) := by
  have compiles := schema.compiles
  generalize hcompile : schema.compile = result at compiles
  cases compiles with
  | unknownNode first =>
      refine compile_eq_unknownNode_iff.mpr ?_
      rw [renames.firstDangling?_eq, first, Option.map_some]
  | combinatorCycle closed search =>
      refine compile_eq_combinatorCycle_iff.mpr ⟨renames.closed_iff.mpr closed, ?_⟩
      rw [renames.searchCycles_eq, search]
      rfl
  | @validator done validator closed search checks root rootType =>
      have found : other.images.searchCycles = .ok done := by
        rw [renames.searchCycles_eq, search]
        rfl
      obtain ⟨there, compiled⟩ := exists_validator_iff_searchCycles.mpr
        ⟨renames.closed_iff.mpr closed, done, found⟩
      obtain ⟨-, -, -, checks', root', rootType'⟩ := holds_images_of_compile compiled
      rw [compiled]
      refine congrArg Except.ok (Validator.eq_of_parts ?_ ?_ ?_)
      · rw [checks', checks, renames.images_eq, Arena.checks_renameOrigins]
      · rw [root', root, renames.root_eq, renames.preorder_eq]
        exact idxOf_map_of_injOn renames.injective (fun id hid => mem_preorder_iff.mp hid)
          (Reachable.root schema)
      · rw [rootType', rootType, renames.render_root_eq]

end Renames

/-- Handles do not show. Where the nodes that are reached stand behind other handles, whatever else
there is, compiling yields the same validator, which has as many slots, describes its root alike and
has the same answer for every value under every limit; or else it yields the same fault, of the node
that stands behind the new handle. -/
theorem renaming_unobservable (renames : schema.Renames other rename) :
    other.compile = schema.compile.mapError (BuildFault.rename rename) ∧
    ((∃ validator, other.compile = .ok validator) ↔
      ∃ validator, schema.compile = .ok validator) ∧
    (∀ validator, schema.compile = .ok validator →
      ∃ validator', other.compile = .ok validator' ∧
        validator'.slotCount = validator.slotCount ∧ validator'.rootType = validator.rootType ∧
        ∀ value limit, validator'.validate value limit = validator.validate value limit) ∧
    (∀ id, schema.compile = .error (.unknownNode id) →
      other.compile = .error (.unknownNode (rename id))) ∧
    ∀ id, schema.compile = .error (.combinatorCycle id) →
      other.compile = .error (.combinatorCycle (rename id)) := by
  have same := renames.compile_eq
  refine ⟨same, ?_, fun validator compiled => ?_, fun id failed => ?_, fun id failed => ?_⟩
  · rw [same]
    cases schema.compile with
    | error fault => simp [Except.mapError]
    | ok validator => simp [Except.mapError]
  · rw [compiled] at same
    exact ⟨validator, same, rfl, rfl, fun value limit => rfl⟩
  · rw [same, failed]
    rfl
  · rw [same, failed]
    rfl

/-- The named links behind odd handles, with nodes in between that nothing leads to: a union of
itself, and references to nodes that are not there. -/
def scatteredLinks : Schema where
  root := ⟨1⟩
  nodes := [
    .union [⟨0⟩],
    .intersection [⟨3⟩, ⟨5⟩],
    .array ⟨99⟩,
    .object "Link" [("next", { definition := ⟨7⟩, isOptional := true })],
    .union [⟨0⟩],
    .object "Named" [("name", { definition := ⟨9⟩ })],
    .tuple [⟨99⟩, ⟨1⟩],
    .union [⟨11⟩, ⟨1⟩],
    .enum "Empty" [],
    .valueType .string,
    .object "Named" [],
    .valueType .null]

theorem scatteredLinks_same : ∃ rename : NodeId → NodeId,
    namedLinks.Renames scatteredLinks rename ∧
    ∃ validator validator', namedLinks.compile = .ok validator ∧
      scatteredLinks.compile = .ok validator' ∧ validator'.slotCount = validator.slotCount ∧
      validator'.rootType = validator.rootType ∧
      ∀ value limit, validator'.validate value limit = validator.validate value limit := by
  let odd : NodeId → NodeId := fun id => ⟨2 * id.index + 1⟩
  have renames : namedLinks.Renames scatteredLinks odd := by
    refine ⟨rfl, Set.injOn_of_injective fun id id' h => ?_, fun id _ => ?_⟩
    · obtain ⟨i⟩ := id
      obtain ⟨j⟩ := id'
      simp only [odd, NodeId.mk.injEq] at h ⊢
      omega
    · match id with
      | ⟨0⟩ | ⟨1⟩ | ⟨2⟩ | ⟨3⟩ | ⟨4⟩ | ⟨5⟩ => rfl
      | ⟨i + 6⟩ => rfl
  obtain ⟨validator, compiled⟩ := namedLinks_compiles
  obtain ⟨-, -, alike, -⟩ := renaming_unobservable renames
  obtain ⟨validator', compiled', same⟩ := alike validator compiled
  exact ⟨odd, renames, validator, validator', compiled, compiled', same⟩

end Schema
end Conform
