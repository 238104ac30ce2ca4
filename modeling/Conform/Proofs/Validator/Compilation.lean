import Conform.Proofs.Schema.Renaming
import Conform.Proofs.Validator.Cycles
import Conform.Validator.Compilation
import Mathlib.Data.List.Permutation

namespace Conform

open Relation

namespace Schema

def Closed (schema : Schema) : Prop := ∀ id, schema.Reachable id → ¬ schema.Dangling id

/-- A union or intersection that is reached and that reaches itself through members only. -/
def OnCombinatorCycle (schema : Schema) (id : NodeId) : Prop :=
  schema.Reachable id ∧ TransGen schema.Combines id id

variable {schema : Schema}

theorem firstDangling?_eq_none_iff : schema.firstDangling? = none ↔ schema.Closed := by
  simp only [firstDangling?, List.find?_eq_none, mem_preorder_iff, decide_eq_true_eq, Closed]

/-! The images of a closed schema, slot by slot. -/

theorem getElem?_images (closed : schema.Closed) (slot : Slot) :
    schema.images[slot]? =
      schema.preorder[slot]?.bind fun id => (schema.imageOf id).map (id, ·) := by
  have known : ∀ id ∈ schema.preorder, (schema.imageOf id).isSome := by
    intro id hid
    have hnode := Option.ne_none_iff_isSome.mp (closed id (mem_preorder_iff.mp hid))
    simpa [imageOf] using hnode
  unfold images
  generalize schema.preorder = order at known ⊢
  induction order generalizing slot with
  | nil => rfl
  | cons first rest ih =>
      obtain ⟨check, hcheck⟩ := Option.isSome_iff_exists.mp (known first List.mem_cons_self)
      have below := fun slot => ih slot fun id hid => known id (List.mem_cons_of_mem _ hid)
      cases slot with
      | zero => simp [hcheck]
      | succ slot => simpa [hcheck] using below slot

theorem getElem?_images_eq_some {slot : Slot} {id : NodeId} {node : Node}
    (closed : schema.Closed) (hid : schema.preorder[slot]? = some id)
    (hnode : schema.node? id = some node) :
    schema.images[slot]? = some (id, Check.ofNode schema schema.preorder id node) := by
  rw [getElem?_images closed, hid]
  simp [imageOf, hnode]

theorem exists_of_getElem?_images {slot : Slot} {entry : NodeId × Check}
    (closed : schema.Closed) (h : schema.images[slot]? = some entry) :
    ∃ node, schema.preorder[slot]? = some entry.1 ∧ schema.node? entry.1 = some node ∧
      entry.2 = Check.ofNode schema schema.preorder entry.1 node := by
  rw [getElem?_images closed] at h
  obtain ⟨id, hid, himage⟩ := Option.bind_eq_some_iff.mp h
  obtain ⟨check, hcheck, rfl⟩ := Option.map_eq_some_iff.mp himage
  obtain ⟨node, hnode, rfl⟩ := Option.map_eq_some_iff.mp hcheck
  exact ⟨node, hid, hnode, rfl⟩

theorem combined_ofNode (schema : Schema) (order : List NodeId) (id : NodeId) (node : Node) :
    (Check.ofNode schema order id node).combined = node.combined.map order.idxOf := by
  cases node <;> rfl

theorem getElem?_preorder_idxOf {id : NodeId} (h : schema.Reachable id) :
    schema.preorder[schema.preorder.idxOf id]? = some id := by
  have hlt := List.idxOf_lt_length_of_mem (mem_preorder_iff.mpr h)
  rw [List.getElem?_eq_getElem hlt, List.getElem_idxOf]

theorem idxOf_preorder_of_getElem? {slot : Slot} {id : NodeId}
    (h : schema.preorder[slot]? = some id) : schema.preorder.idxOf id = slot := by
  obtain ⟨below, rfl⟩ := List.getElem?_eq_some_iff.mp h
  exact schema.nodup_preorder.idxOf_getElem slot below

theorem combines_images_iff (closed : schema.Closed) {slot m : Slot} :
    schema.images.Combines slot m ↔
      ∃ id member, schema.preorder[slot]? = some id ∧ schema.Combines id member ∧
        schema.preorder.idxOf member = m := by
  constructor
  · intro h
    obtain ⟨entry, hentry, hm⟩ := h.exists_entry
    obtain ⟨node, hid, hnode, himage⟩ := exists_of_getElem?_images closed hentry
    rw [himage, combined_ofNode] at hm
    obtain ⟨member, hmember, hnumber⟩ := List.mem_map.mp hm
    exact ⟨entry.1, member, hid, ⟨node, hnode, hmember⟩, hnumber⟩
  · rintro ⟨id, member, hid, ⟨node, hnode, hmember⟩, rfl⟩
    refine Arena.combines_of_entry (getElem?_images_eq_some closed hid hnode) ?_
    rw [combined_ofNode]
    exact List.mem_map_of_mem hmember

theorem onCycle_images_iff (closed : schema.Closed) {origin : NodeId} :
    schema.images.OnCycle origin ↔ schema.OnCombinatorCycle origin := by
  constructor
  · rintro ⟨slot, check, hslot, hcycle⟩
    obtain ⟨node, hid, -, -⟩ := exists_of_getElem?_images closed hslot
    have reached : schema.Reachable origin := mem_preorder_iff.mp (List.mem_of_getElem? hid)
    have back : ∀ {a b}, schema.images.Combines a b →
        schema.Combines (schema.preorder.getD a schema.root)
          (schema.preorder.getD b schema.root) := by
      intro a b hab
      obtain ⟨id, member, hid, hcombines, rfl⟩ := (combines_images_iff closed).mp hab
      have hmember : schema.Reachable member :=
        (mem_preorder_iff.mp (List.mem_of_getElem? hid)).child hcombines.refers
      simpa [List.getD, hid, getElem?_preorder_idxOf hmember] using hcombines
    have cycle : TransGen schema.Combines (schema.preorder.getD slot schema.root)
        (schema.preorder.getD slot schema.root) :=
      hcycle.lift (fun slot => schema.preorder.getD slot schema.root) fun _ _ => back
    have here : schema.preorder.getD slot schema.root = origin := by simp [hid]
    rw [here] at cycle
    exact ⟨reached, cycle⟩
  · rintro ⟨reached, hcycle⟩
    have forth : ∀ {id member}, TransGen schema.Combines id member → schema.Reachable id →
        schema.Reachable member ∧
          TransGen schema.images.Combines (schema.preorder.idxOf id)
            (schema.preorder.idxOf member) := by
      intro id member h hreach
      induction h with
      | single hstep =>
          refine ⟨hreach.child hstep.refers, TransGen.single ?_⟩
          exact (combines_images_iff closed).mpr
            ⟨id, _, getElem?_preorder_idxOf hreach, hstep, rfl⟩
      | tail _ hstep ih =>
          refine ⟨ih.1.child hstep.refers, ih.2.tail ?_⟩
          exact (combines_images_iff closed).mpr
            ⟨_, _, getElem?_preorder_idxOf ih.1, hstep, rfl⟩
    obtain ⟨node, hnode⟩ := Option.ne_none_iff_exists'.mp (closed origin reached)
    exact ⟨_, _, getElem?_images_eq_some closed (getElem?_preorder_idxOf reached) hnode,
      (forth hcycle reached).2⟩

/-! Compiling, case by case. -/

/-- Every outcome of compiling, with what the schema is like when it occurs. -/
inductive Compiles (schema : Schema) : Except BuildFault Validator → Prop
  | unknownNode {id : NodeId} (first : schema.firstDangling? = some id) :
      Compiles schema (.error (.unknownNode id))
  | combinatorCycle {id : NodeId} (closed : schema.Closed)
      (search : schema.images.searchCycles = .error id) :
      Compiles schema (.error (.combinatorCycle id))
  | validator {done : List Slot} {validator : Validator} (closed : schema.Closed)
      (search : schema.images.searchCycles = .ok done)
      (checks : validator.checks = schema.images.checks)
      (root : validator.root = schema.preorder.idxOf schema.root)
      (rootType : validator.rootType = schema.render schema.root) :
      Compiles schema (.ok validator)

theorem compiles (schema : Schema) : schema.Compiles schema.compile := by
  rcases slotFor_root schema with ⟨id, first, run⟩ | ⟨known, result, run, hroot, hresolve⟩
  · rw [compile, run]
    exact .unknownNode first
  · have closed := firstDangling?_eq_none_iff.mp known
    obtain ⟨⟨root, builder⟩, grown⟩ := result
    rw [compile, run]
    simp only at hroot hresolve
    simp only [bind, Except.bind, hresolve]
    split
    · rename_i origin hsearch
      exact .combinatorCycle closed hsearch
    · rename_i done hsearch
      exact .validator closed hsearch rfl hroot rfl

theorem compile_eq_unknownNode_iff {id : NodeId} :
    schema.compile = .error (.unknownNode id) ↔ schema.firstDangling? = some id := by
  have compiles := schema.compiles
  constructor
  · intro h
    rw [h] at compiles
    cases compiles with
    | unknownNode first => exact first
  · intro h
    generalize schema.compile = result at compiles ⊢
    cases compiles with
    | unknownNode first => rw [Option.some.inj (h.symm.trans first)]
    | combinatorCycle closed search =>
        rw [firstDangling?_eq_none_iff.mpr closed] at h
        cases h
    | validator closed search checks root rootType =>
        rw [firstDangling?_eq_none_iff.mpr closed] at h
        cases h

theorem exists_unknownNode_iff :
    (∃ id, schema.compile = .error (.unknownNode id)) ↔ ¬ schema.Closed := by
  simp only [compile_eq_unknownNode_iff, ← firstDangling?_eq_none_iff]
  exact Option.ne_none_iff_exists'.symm

theorem compile_eq_combinatorCycle_iff {id : NodeId} :
    schema.compile = .error (.combinatorCycle id) ↔
      schema.Closed ∧ schema.images.searchCycles = .error id := by
  have compiles := schema.compiles
  constructor
  · intro h
    rw [h] at compiles
    cases compiles with
    | combinatorCycle closed search => exact ⟨closed, search⟩
  · rintro ⟨closed, hsearch⟩
    generalize schema.compile = result at compiles ⊢
    cases compiles with
    | unknownNode first =>
        rw [firstDangling?_eq_none_iff.mpr closed] at first
        cases first
    | combinatorCycle _ search => rw [Except.error.inj (hsearch.symm.trans search)]
    | validator _ search checks root rootType =>
        rw [hsearch] at search
        cases search

theorem exists_validator_iff_searchCycles :
    (∃ validator, schema.compile = .ok validator) ↔
      schema.Closed ∧ ∃ done, schema.images.searchCycles = .ok done := by
  have compiles := schema.compiles
  constructor
  · rintro ⟨validator, h⟩
    rw [h] at compiles
    cases compiles with
    | validator closed search checks root rootType => exact ⟨closed, _, search⟩
  · rintro ⟨closed, done, hsearch⟩
    generalize schema.compile = result at compiles ⊢
    cases compiles with
    | unknownNode first =>
        rw [firstDangling?_eq_none_iff.mpr closed] at first
        cases first
    | combinatorCycle _ search =>
        rw [hsearch] at search
        cases search
    | @validator _ validator _ search checks root rootType => exact ⟨validator, rfl⟩

theorem compile_ne_unresolved (schema : Schema) (id : NodeId) :
    schema.compile ≠ .error (.unresolved id) := by
  intro h
  have compiles := schema.compiles
  rw [h] at compiles
  cases compiles

theorem searchCycles_images (closed : schema.Closed) :
    (∃ origin, schema.images.searchCycles = .error origin ∧ schema.OnCombinatorCycle origin) ∨
    (∃ done, schema.images.searchCycles = .ok done) ∧ ∀ id, ¬ schema.OnCombinatorCycle id := by
  cases hsearch : schema.images.searchCycles with
  | error origin =>
      have hcycle := (onCycle_images_iff closed).mp (Arena.onCycle_of_searchCycles hsearch)
      exact .inl ⟨origin, rfl, hcycle⟩
  | ok done =>
      refine .inr ⟨⟨done, rfl⟩, fun id hcycle => ?_⟩
      obtain ⟨slot, _, _, hslot⟩ := (onCycle_images_iff closed).mpr hcycle
      exact Arena.acyclic_of_searchCycles hsearch slot hslot

theorem onCombinatorCycle_of_compile {id : NodeId}
    (h : schema.compile = .error (.combinatorCycle id)) : schema.OnCombinatorCycle id := by
  obtain ⟨closed, hsearch⟩ := compile_eq_combinatorCycle_iff.mp h
  rcases searchCycles_images closed with ⟨origin, hother, hcycle⟩ | ⟨⟨done, hother⟩, -⟩
  · rw [Except.error.inj (hsearch.symm.trans hother)]
    exact hcycle
  · rw [hsearch] at hother
    cases hother

theorem exists_combinatorCycle_iff :
    (∃ id, schema.compile = .error (.combinatorCycle id)) ↔
      schema.Closed ∧ ∃ id, schema.OnCombinatorCycle id := by
  simp only [compile_eq_combinatorCycle_iff, exists_and_left]
  refine and_congr_right fun closed => ?_
  rcases searchCycles_images closed with ⟨origin, hsearch, hcycle⟩ | ⟨⟨done, hsearch⟩, acyclic⟩
  · exact iff_of_true ⟨origin, hsearch⟩ ⟨origin, hcycle⟩
  · simp [hsearch, acyclic]

theorem exists_validator_iff :
    (∃ validator, schema.compile = .ok validator) ↔
      schema.Closed ∧ ∀ id, ¬ schema.OnCombinatorCycle id := by
  rw [exists_validator_iff_searchCycles]
  refine and_congr_right fun closed => ?_
  rcases searchCycles_images closed with ⟨origin, hsearch, hcycle⟩ | ⟨⟨done, hsearch⟩, acyclic⟩
  · refine iff_of_false ?_ fun acyclic => acyclic origin hcycle
    simp [hsearch]
  · exact iff_of_true ⟨done, hsearch⟩ acyclic

theorem exists_validator_of_leaf (node : Node) (leaf : node.children = []) :
    ∃ validator, compile ⟨⟨0⟩, [node]⟩ = .ok validator := by
  have nowhere (id child : NodeId) : ¬ Refers ⟨⟨0⟩, [node]⟩ id child := by
    intro refers
    obtain ⟨other, hother, hchild⟩ := refers_iff.mp refers
    rw [List.mem_singleton.mp (List.mem_of_getElem? hother), leaf] at hchild
    cases hchild
  refine exists_validator_iff.mpr ⟨fun id reached dangling => ?_, fun id cycle => ?_⟩
  · rcases reached.cases_tail with rfl | ⟨before, -, refers⟩
    · cases dangling
    · exact nowhere before id refers
  · obtain ⟨_, combines, -⟩ := TransGen.head'_iff.mp cycle.2
    exact nowhere id _ combines.refers

theorem holds_images_of_compile {validator : Validator}
    (compiled : schema.compile = .ok validator) :
    schema.Closed ∧ ∃ done, schema.images.searchCycles = .ok done ∧
      validator.checks = schema.images.checks ∧
      validator.root = schema.preorder.idxOf schema.root ∧
      validator.rootType = schema.render schema.root := by
  have compiles := schema.compiles
  rw [compiled] at compiles
  cases compiles with
  | validator closed search checks root rootType =>
      exact ⟨closed, _, search, checks, root, rootType⟩

theorem exists_check_of_compile {validator : Validator}
    (compiled : schema.compile = .ok validator) {id : NodeId} (reached : schema.Reachable id) :
    ∃ node, schema.node? id = some node ∧
      validator.checks[schema.preorder.idxOf id]? =
        some (Check.ofNode schema schema.preorder id node) := by
  obtain ⟨closed, done, -, hchecks, -⟩ := holds_images_of_compile compiled
  obtain ⟨node, hnode⟩ := Option.ne_none_iff_exists'.mp (closed id reached)
  refine ⟨node, hnode, ?_⟩
  rw [hchecks, Arena.checks, List.getElem?_map,
    getElem?_images_eq_some closed (getElem?_preorder_idxOf reached) hnode, Option.map_some]

/-- A chain of named links: each is both a link and named, and what comes next is a link again or
null. -/
def namedLinks : Schema where
  root := ⟨0⟩
  nodes := [
    .intersection [⟨1⟩, ⟨2⟩],
    .object "Link" [("next", { definition := ⟨3⟩, isOptional := true })],
    .object "Named" [("name", { definition := ⟨4⟩ })],
    .union [⟨5⟩, ⟨0⟩],
    .valueType .string,
    .valueType .null]

theorem namedLinks_compiles : ∃ validator, namedLinks.compile = .ok validator := by
  have known : namedLinks.firstDangling? = none := by cbv
  have search : namedLinks.images.searchCycles = .ok [5, 2, 3, 0, 4, 1] := by cbv
  exact exists_validator_iff_searchCycles.mpr ⟨firstDangling?_eq_none_iff.mp known, _, search⟩

/-! What is not reached plays no part, and what is reached may stand behind other handles. -/

theorem Renames.firstDangling?_eq {other : Schema} {rename : NodeId → NodeId}
    (renames : schema.Renames other rename) :
    other.firstDangling? = schema.firstDangling?.map rename := by
  rw [firstDangling?, firstDangling?, renames.preorder_eq, List.find?_map]
  refine congrArg (Option.map rename) ?_
  rw [← List.head?_filter, ← List.head?_filter]
  refine congrArg List.head? (List.filter_congr fun id hid => ?_)
  simp only [Function.comp_apply, renames.dangling_iff (mem_preorder_iff.mp hid)]

theorem Renames.closed_iff {other : Schema} {rename : NodeId → NodeId}
    (renames : schema.Renames other rename) : other.Closed ↔ schema.Closed := by
  rw [← firstDangling?_eq_none_iff, ← firstDangling?_eq_none_iff, renames.firstDangling?_eq,
    Option.map_eq_none_iff]

structure SameReach (schema other : Schema) : Prop where
  root_eq : other.root = schema.root
  node?_eq : ∀ id, schema.Reachable id → other.node? id = schema.node? id

variable {other : Schema}

theorem SameReach.renames (same : schema.SameReach other) : schema.Renames other id where
  root_eq := same.root_eq
  injective := Set.injOn_id _
  node?_eq := by
    intro id reached
    rw [funext Node.rename_id, Option.map_id_fun']
    exact same.node?_eq id reached

theorem SameReach.preorder_eq (same : schema.SameReach other) :
    other.preorder = schema.preorder := by
  rw [same.renames.preorder_eq, List.map_id]

theorem SameReach.firstDangling?_eq (same : schema.SameReach other) :
    other.firstDangling? = schema.firstDangling? := by
  rw [same.renames.firstDangling?_eq, Option.map_id_fun, id]

theorem SameReach.closed_iff (same : schema.SameReach other) : other.Closed ↔ schema.Closed :=
  same.renames.closed_iff

theorem SameReach.outline_images_eq (same : schema.SameReach other) (closed : schema.Closed) :
    other.images.outline = schema.images.outline := by
  refine List.ext_getElem? fun slot => ?_
  rw [Arena.outline, Arena.outline, List.getElem?_map, List.getElem?_map,
    getElem?_images (same.closed_iff.mpr closed), getElem?_images closed, same.preorder_eq]
  cases hid : schema.preorder[slot]? with
  | none => rfl
  | some id =>
      have reached : schema.Reachable id := mem_preorder_iff.mp (List.mem_of_getElem? hid)
      rw [Option.bind_some, Option.bind_some, imageOf, imageOf, same.node?_eq id reached,
        same.preorder_eq]
      cases schema.node? id with
      | none => rfl
      | some node => simp only [Option.map_some, combined_ofNode]

theorem SameReach.searchCycles_images_eq (same : schema.SameReach other) (closed : schema.Closed) :
    other.images.searchCycles = schema.images.searchCycles :=
  Arena.searchCycles_eq_of_outline_eq (same.outline_images_eq closed)

/-- Compiling names the first handle on the walk that refers to nothing; if there is none, a union
or intersection on a cycle of such; and if there is no such cycle either it yields a validator. What
the root does not reach decides nothing. -/
theorem compile_outcome (schema : Schema) :
    (∀ id, schema.compile = .error (.unknownNode id) ↔ schema.firstDangling? = some id) ∧
    ((∃ id, schema.compile = .error (.unknownNode id)) ↔
      ∃ id, schema.Reachable id ∧ schema.Dangling id) ∧
    ((∃ id, schema.compile = .error (.combinatorCycle id)) ↔
      (∀ id, schema.Reachable id → ¬ schema.Dangling id) ∧
        ∃ id, schema.Reachable id ∧ TransGen schema.Combines id id) ∧
    (∀ id, schema.compile = .error (.combinatorCycle id) →
      schema.Reachable id ∧ TransGen schema.Combines id id) ∧
    ((∃ validator, schema.compile = .ok validator) ↔
      (∀ id, schema.Reachable id → ¬ schema.Dangling id) ∧
        ∀ id, schema.Reachable id → ¬ TransGen schema.Combines id id) ∧
    (∀ id, schema.compile ≠ .error (.unresolved id)) ∧
    ∀ other, schema.SameReach other →
      (∀ id, other.compile = .error (.unknownNode id) ↔
        schema.compile = .error (.unknownNode id)) ∧
      (∀ id, other.compile = .error (.combinatorCycle id) ↔
        schema.compile = .error (.combinatorCycle id)) ∧
      ((∃ validator, other.compile = .ok validator) ↔
        ∃ validator, schema.compile = .ok validator) := by
  refine ⟨fun id => compile_eq_unknownNode_iff, ?_, exists_combinatorCycle_iff,
    fun id h => onCombinatorCycle_of_compile h, ?_, compile_ne_unresolved schema, ?_⟩
  · rw [exists_unknownNode_iff, Closed]
    push Not
    rfl
  · rw [exists_validator_iff]
    simp only [OnCombinatorCycle, not_and, Closed]
  · intro other same
    refine ⟨fun id => ?_, fun id => ?_, ?_⟩
    · rw [compile_eq_unknownNode_iff, compile_eq_unknownNode_iff, same.firstDangling?_eq]
    · rw [compile_eq_combinatorCycle_iff, compile_eq_combinatorCycle_iff, same.closed_iff]
      exact and_congr_right fun closed => by rw [same.searchCycles_images_eq closed]
    · rw [exists_validator_iff_searchCycles, exists_validator_iff_searchCycles, same.closed_iff]
      exact and_congr_right fun closed => by rw [same.searchCycles_images_eq closed]

end Schema
end Conform
