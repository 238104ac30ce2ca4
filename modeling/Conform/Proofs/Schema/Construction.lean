import Conform.Proofs.Schema.Elision
import Conform.Proofs.Validator.Compilation
import Conform.Schema.Graph

/-!
Schemas that are put together by calls, of which some may fail. A graph holds the nodes that were
made, in order, and each of its objects the properties that were added to it, in order. A graph that
can be finished holds no handle that refers to nothing, wherever a walk through it looks.
-/

namespace Conform

open Relation

def Node.withMore (more : List (String × Property)) : Node → Node
  | .object name properties => .object name (properties ++ more)
  | node => node

namespace Node

@[simp] theorem withMore_nil (node : Node) : node.withMore [] = node := by
  cases node with
  | object name properties => rw [withMore, List.append_nil]
  | _ => rfl

theorem withMore_withMore (node : Node) (more later : List (String × Property)) :
    (node.withMore more).withMore later = node.withMore (more ++ later) := by
  cases node with
  | object name properties => exact congrArg (object name) (List.append_assoc _ _ _)
  | _ => rfl

end Node

namespace SchemaGraph

def node? (graph : SchemaGraph) (id : NodeId) : Option Node := graph.nodes[id.index]?

/-- A call that may change a graph. A node that is added as a whole holds each key once. -/
inductive Operation where
  | add (node : Node) (distinct : node.keys.Nodup)
  | valueType (kind : ValueKind)
  | literal (value : Scalar)
  | array (element : NodeId)
  | tuple (elements : List NodeId)
  | union (members : List NodeId)
  | intersection (members : List NodeId)
  | enumeration (name : String) (values : List Scalar)
  | object (name : String)
  | property (object : NodeId) (key : String) (property : Property)

def Operation.node? : Operation → Option Node
  | .add node _ => some node
  | .valueType kind => some (.valueType kind)
  | .literal value => some (.literal value)
  | .array element => some (.array element)
  | .tuple elements => some (.tuple elements)
  | .union members => some (.union members)
  | .intersection members => some (.intersection members)
  | .enumeration name values => some (.enum name values)
  | .object name => some (.object name [])
  | .property _ _ _ => none

inductive Answer where
  | made (id : NodeId)
  | added
  | refused (fault : SchemaFault)

def perform (graph : SchemaGraph) : Operation → Answer × SchemaGraph
  | .add node _ => (graph.add node).map .made id
  | .valueType kind => (graph.valueType kind).map .made id
  | .literal value => (graph.literal value).map .made id
  | .array element => (graph.array element).map .made id
  | .tuple elements => (graph.tuple elements).map .made id
  | .union members => (graph.union members).map .made id
  | .intersection members => (graph.intersection members).map .made id
  | .enumeration name values => (graph.enumeration name values).map .made id
  | .object name => (graph.object name).map .made id
  | .property object key property =>
      match graph.property object key property with
      | .ok after => (.added, after)
      | .error fault => (.refused fault, graph)

variable {graph after : SchemaGraph} {operation : Operation} {node : Node} {object root : NodeId}
  {key : String} {property : Property} {fault : SchemaFault}

/-! What one call does. -/

structure Appends (graph : SchemaGraph) (node : Node) (after : SchemaGraph) : Prop where
  size_eq : after.size = graph.size + 1
  last : after.node? ⟨graph.size⟩ = some node
  earlier : ∀ id : NodeId, id.index < graph.size → after.node? id = graph.node? id

structure Extends (graph : SchemaGraph) (object : NodeId) (key : String) (property : Property)
    (after : SchemaGraph) : Prop where
  known : property.definition.index < graph.size
  extended : ∃ name properties, graph.node? object = some (.object name properties) ∧
    key ∉ properties.map (·.1) ∧
    after.node? object = some (.object name (properties ++ [(key, property)]))
  others : ∀ id, id ≠ object → after.node? id = graph.node? id

inductive Refuses (graph : SchemaGraph) (object : NodeId) (key : String) (property : Property) :
    SchemaFault → Prop
  | definition (unknown : graph.size ≤ property.definition.index) :
      Refuses graph object key property (.unknownNode property.definition)
  | object (known : property.definition.index < graph.size)
      (unknown : graph.size ≤ object.index) :
      Refuses graph object key property (.unknownNode object)
  | kind {node : Node} (known : property.definition.index < graph.size)
      (hnode : graph.node? object = some node) (other : node.kind ≠ .object) :
      Refuses graph object key property (.notAnObject object)
  | key {name : String} {properties : List (String × Property)}
      (known : property.definition.index < graph.size)
      (hnode : graph.node? object = some (.object name properties))
      (taken : key ∈ properties.map (·.1)) :
      Refuses graph object key property (.duplicateProperty object key)

theorem ext_node? (same : ∀ id, after.node? id = graph.node? id) : after = graph := by
  cases graph
  cases after
  exact congrArg SchemaGraph.mk (List.ext_getElem? fun i => same ⟨i⟩)

theorem index_lt_of_node? {id : NodeId} (h : graph.node? id = some node) :
    id.index < graph.size :=
  (List.getElem?_eq_some_iff.mp h).1

theorem appends_append (graph : SchemaGraph) (node : Node) :
    graph.Appends node ⟨graph.nodes ++ [node]⟩ where
  size_eq := by simp [size]
  last := by simp [node?, size]
  earlier := fun _ hlt => List.getElem?_append_left hlt

theorem perform_of_node (made : operation.node? = some node) :
    graph.perform operation = (.made ⟨graph.size⟩, ⟨graph.nodes ++ [node]⟩) := by
  cases operation with
  | property object key property => cases made
  | _ =>
      cases made
      rfl

theorem node?_set_self (hnode : graph.node? object = some node) (new : Node) :
    node? ⟨graph.nodes.set object.index new⟩ object = some new :=
  List.getElem?_set_self (index_lt_of_node? hnode)

theorem node?_set_of_ne {id : NodeId} (h : id ≠ object) (new : Node) :
    node? ⟨graph.nodes.set object.index new⟩ id = graph.node? id := by
  refine List.getElem?_set_ne fun same => h ?_
  cases id
  cases object
  exact congrArg NodeId.mk same.symm

theorem property_outcome (graph : SchemaGraph) (object : NodeId) (key : String)
    (property : Property) :
    (∃ after, graph.property object key property = .ok after ∧
      graph.Extends object key property after) ∨
    ∃ fault, graph.property object key property = .error fault ∧
      graph.Refuses object key property fault := by
  rw [SchemaGraph.property]
  by_cases hknown : graph.size ≤ property.definition.index
  · rw [if_pos hknown]
    exact .inr ⟨_, rfl, .definition hknown⟩
  · rw [if_neg hknown]
    rw [Nat.not_le] at hknown
    split
    · rename_i hobject
      exact .inr ⟨_, rfl, .object hknown (List.getElem?_eq_none_iff.mp hobject)⟩
    · rename_i name properties hobject
      split
      · rename_i taken
        refine .inr ⟨_, rfl, .key hknown hobject ?_⟩
        simpa using taken
      · rename_i free
        refine .inl ⟨_, rfl, hknown, ⟨name, properties, hobject, by simpa using free, ?_⟩, ?_⟩
        · exact node?_set_self hobject _
        · exact fun id h => node?_set_of_ne h _
    · rename_i node other hobject
      refine .inr ⟨_, rfl, .kind hknown hobject ?_⟩
      cases node <;> simp_all [Node.kind]

theorem Extends.unique {after' : SchemaGraph} (h : graph.Extends object key property after)
    (h' : graph.Extends object key property after') : after = after' := by
  obtain ⟨name, properties, hnode, -, hafter⟩ := h.extended
  obtain ⟨name', properties', hnode', -, hafter'⟩ := h'.extended
  obtain ⟨rfl, rfl⟩ := Node.object.inj (Option.some.inj (hnode.symm.trans hnode'))
  refine ext_node? fun id => ?_
  by_cases same : id = object
  · rw [same, hafter, hafter']
  · rw [h.others id same, h'.others id same]

theorem Extends.not_refuses (h : graph.Extends object key property after) :
    ¬ graph.Refuses object key property fault := by
  obtain ⟨name, properties, hnode, free, -⟩ := h.extended
  intro refuses
  cases refuses with
  | definition unknown => exact Nat.not_lt.mpr unknown h.known
  | object _ unknown => exact Nat.not_lt.mpr unknown (index_lt_of_node? hnode)
  | kind _ hnode' other =>
      rw [← Option.some.inj (hnode.symm.trans hnode')] at other
      exact other rfl
  | key _ hnode' taken =>
      obtain ⟨-, rfl⟩ := Node.object.inj (Option.some.inj (hnode.symm.trans hnode'))
      exact free taken

theorem Refuses.unique {fault' : SchemaFault} (h : graph.Refuses object key property fault)
    (h' : graph.Refuses object key property fault') : fault = fault' := by
  -- Each reason asks that those before it do not apply, so two of them never meet.
  cases h with
  | definition unknown =>
      cases h' with
      | definition => rfl
      | _ => omega
  | object known unknown =>
      cases h' with
      | definition => omega
      | object => rfl
      | kind _ hnode => exact absurd (index_lt_of_node? hnode) (Nat.not_lt.mpr unknown)
      | key _ hnode => exact absurd (index_lt_of_node? hnode) (Nat.not_lt.mpr unknown)
  | kind known hnode other =>
      cases h' with
      | definition => omega
      | object _ unknown => exact absurd (index_lt_of_node? hnode) (Nat.not_lt.mpr unknown)
      | kind => rfl
      | key _ hnode' =>
          rw [Option.some.inj (hnode.symm.trans hnode')] at other
          exact absurd rfl other
  | key known hnode =>
      cases h' with
      | definition => omega
      | object _ unknown => exact absurd (index_lt_of_node? hnode) (Nat.not_lt.mpr unknown)
      | kind _ hnode' other =>
          rw [← Option.some.inj (hnode.symm.trans hnode')] at other
          exact absurd rfl other
      | key => rfl

theorem property_eq_ok_iff :
    graph.property object key property = .ok after ↔ graph.Extends object key property after := by
  rcases graph.property_outcome object key property with ⟨after', h, extended⟩ | ⟨fault, h, refuses⟩
  · rw [h]
    exact ⟨fun same => Except.ok.inj same ▸ extended, fun other => by rw [extended.unique other]⟩
  · rw [h]
    exact iff_of_false (by simp) fun extended => extended.not_refuses refuses

theorem property_eq_error_iff :
    graph.property object key property = .error fault ↔
      graph.Refuses object key property fault := by
  rcases graph.property_outcome object key property with
    ⟨after', h, extended⟩ | ⟨fault', h, refuses⟩
  · rw [h]
    exact iff_of_false (by simp) extended.not_refuses
  · rw [h]
    exact ⟨fun same => Except.error.inj same ▸ refuses, fun other => by rw [refuses.unique other]⟩

end SchemaGraph

/-! What can be finished. -/

namespace Schema

variable {schema : Schema} {id : NodeId}

/-- Every handle in a schema refers to a node, whether it is reached or not. -/
@[mk_iff complete_iff]
structure Complete (schema : Schema) : Prop where
  root : ¬ schema.Dangling schema.root
  children : ∀ node ∈ schema.nodes, ∀ child ∈ node.children, ¬ schema.Dangling child

theorem not_dangling_iff : ¬ schema.Dangling id ↔ id.index < schema.nodes.length := by
  rw [Dangling, node?, List.getElem?_eq_none_iff, Nat.not_le]

theorem checkReferences_eq_ok_iff : schema.checkReferences = .ok () ↔ schema.Complete := by
  have all : (∀ id ∈ schema.root :: schema.nodes.flatMap Node.children, ¬ schema.Dangling id) ↔
      schema.Complete := by
    rw [List.forall_mem_cons]
    constructor
    · rintro ⟨root, children⟩
      exact ⟨root, fun node hnode child hchild =>
        children child (List.mem_flatMap.mpr ⟨node, hnode, hchild⟩)⟩
    · rintro ⟨root, children⟩
      refine ⟨root, fun child hchild => ?_⟩
      obtain ⟨node, hnode, hchild⟩ := List.mem_flatMap.mp hchild
      exact children node hnode child hchild
  rw [← all, checkReferences]
  split
  · rename_i id hfind
    have hdangling : schema.Dangling id := by simpa [Dangling] using List.find?_some hfind
    refine iff_of_false (by simp) fun known => ?_
    exact known id (List.mem_of_find?_eq_some hfind) hdangling
  · rename_i hfind
    refine iff_of_true rfl fun id hid => ?_
    simpa [Dangling] using List.find?_eq_none.mp hfind id hid

namespace Complete

theorem child (complete : schema.Complete) {node : Node} {child : NodeId}
    (hnode : schema.node? id = some node) (hchild : child ∈ node.children) :
    ¬ schema.Dangling child :=
  complete.children node (List.mem_of_getElem? hnode) child hchild

theorem closed (complete : schema.Complete) : schema.Closed := by
  intro id reached
  induction reached with
  | refl => exact complete.root
  | tail _ last _ =>
      obtain ⟨node, hnode, hchild⟩ := refers_iff.mp last
      exact complete.child hnode hchild

theorem compile_ne_unknownNode (complete : schema.Complete) (id : NodeId) :
    schema.compile ≠ .error (.unknownNode id) :=
  fun failed => exists_unknownNode_iff.mp ⟨id, failed⟩ complete.closed

theorem not_dangling_of_visits (complete : schema.Complete) {start : NodeId}
    {opened : List NodeId} (known : ¬ schema.Dangling start)
    (visits : schema.Visits start opened id) : ¬ schema.Dangling id := by
  cases visits with
  | start => exact known
  | shown _ hnode _ hchild =>
      exact complete.child hnode (Node.shown_subset_children _ hchild)

end Complete

end Schema

namespace SchemaGraph

variable {graph after : SchemaGraph} {operation : Operation} {node : Node} {object root : NodeId}
  {key : String} {property : Property} {fault : SchemaFault}

theorem finish_eq_ok_iff {schema : Schema} :
    graph.finish root = .ok schema ↔ schema = ⟨root, graph.nodes⟩ ∧ schema.Complete := by
  rw [finish]
  cases hcheck : Schema.checkReferences ⟨root, graph.nodes⟩ with
  | error fault =>
      refine iff_of_false (by simp [Except.map]) ?_
      rintro ⟨rfl, complete⟩
      cases hcheck.symm.trans (Schema.checkReferences_eq_ok_iff.mpr complete)
  | ok _ =>
      constructor
      · intro h
        cases h
        exact ⟨rfl, Schema.checkReferences_eq_ok_iff.mp hcheck⟩
      · rintro ⟨rfl, -⟩
        rfl

theorem exists_finish_iff :
    (∃ schema, graph.finish root = .ok schema) ↔ root.index < graph.size ∧
      ∀ node ∈ graph.nodes, ∀ child ∈ node.children, child.index < graph.size := by
  have inside : Schema.Complete ⟨root, graph.nodes⟩ ↔ root.index < graph.size ∧
      ∀ node ∈ graph.nodes, ∀ child ∈ node.children, child.index < graph.size := by
    simp only [Schema.complete_iff, Schema.not_dangling_iff, size]
  simp only [finish_eq_ok_iff, ← inside]
  exact ⟨fun ⟨_, h, complete⟩ => h ▸ complete, fun complete => ⟨_, rfl, complete⟩⟩

/-! Runs of calls. -/

/-- Calls, each with what it answered. -/
abbrev Log := List (Operation × Answer)

namespace Log

def made (log : Log) : List Node := log.filterMap (·.1.node?)

def addition? (object : NodeId) : Operation × Answer → Option (String × Property)
  | (.property into key property, .added) => if into = object then some (key, property) else none
  | _ => none

def added (log : Log) (object : NodeId) : List (String × Property) :=
  log.filterMap (addition? object)

variable {log : Log} {operation : Operation} {answer : Answer}

theorem made_append (log : Log) (operation : Operation) (answer : Answer) :
    made (log ++ [(operation, answer)]) = log.made ++ operation.node?.toList := by
  rw [made, List.filterMap_append]
  cases h : operation.node? <;> simp [made, h]

theorem added_append (log : Log) (entry : Operation × Answer) (object : NodeId) :
    added (log ++ [entry]) object = log.added object ++ (addition? object entry).toList := by
  rw [added, List.filterMap_append]
  cases h : addition? object entry <;> simp [added, h]

end Log

/-- The nodes of a graph are those that calls made, each with the properties that calls added to it,
and each with distinct keys. -/
structure Records (graph : SchemaGraph) (log : Log) : Prop where
  node?_eq : ∀ id : NodeId, graph.node? id =
    (log.made[id.index]?).map (Node.withMore (log.added id))
  added_eq_nil : ∀ id, graph.node? id = none → log.added id = []
  distinct : ∀ id node, graph.node? id = some node → node.keys.Nodup

variable {log : Log}

theorem records_empty : empty.Records [] where
  node?_eq := fun _ => rfl
  added_eq_nil := fun _ _ => rfl
  distinct := fun _ _ h => by cases h

theorem Records.length_made (records : graph.Records log) : log.made.length = graph.size := by
  have same : ∀ i : Nat, log.made.length ≤ i ↔ graph.size ≤ i := by
    intro i
    have here := records.node?_eq ⟨i⟩
    rw [← List.getElem?_eq_none_iff, ← Option.map_eq_none_iff (f := Node.withMore _), ← here]
    exact List.getElem?_eq_none_iff
  exact Nat.le_antisymm ((same _).mpr (Nat.le_refl _)) ((same _).mp (Nat.le_refl _))

theorem Operation.distinct_of_node (made : operation.node? = some node) : node.keys.Nodup := by
  cases operation with
  | add node distinct =>
      cases made
      exact distinct
  | property object key property => cases made
  | _ =>
      cases made
      exact List.nodup_nil

theorem Records.append (records : graph.Records log) (made : operation.node? = some node) :
    Records ⟨graph.nodes ++ [node]⟩ (log ++ [(operation, .made ⟨graph.size⟩)]) := by
  have length : log.made.length = graph.nodes.length := records.length_made
  have hmade : Log.made (log ++ [(operation, .made ⟨graph.size⟩)]) = log.made ++ [node] := by
    rw [Log.made_append, made]
    rfl
  have hadded : ∀ id, Log.added (log ++ [(operation, .made ⟨graph.size⟩)]) id = log.added id := by
    intro id
    rw [Log.added_append]
    cases operation <;> exact List.append_nil _
  constructor
  · intro id
    rw [hmade, hadded, SchemaGraph.node?]
    rcases Nat.lt_trichotomy id.index graph.nodes.length with before | here | beyond
    · rw [List.getElem?_append_left before, List.getElem?_append_left (length ▸ before)]
      exact records.node?_eq id
    · have new : graph.node? id = none := List.getElem?_eq_none_iff.mpr here.ge
      rw [records.added_eq_nil id new, here, List.getElem?_concat_length, ← length,
        List.getElem?_concat_length, Option.map_some, Node.withMore_nil]
    · have afterLast : graph.nodes.length + 1 ≤ id.index := beyond
      rw [List.getElem?_eq_none_iff.mpr (by simpa using afterLast),
        List.getElem?_eq_none_iff.mpr (by simpa [length] using afterLast), Option.map_none]
  · intro id h
    rw [hadded]
    refine records.added_eq_nil id (List.getElem?_eq_none_iff.mpr ?_)
    have beyond := List.getElem?_eq_none_iff.mp h
    rw [List.length_append] at beyond
    exact Nat.le_of_add_right_le beyond
  · intro id other h
    rcases List.mem_append.mp (List.mem_of_getElem? h) with old | new
    · obtain ⟨i, hi⟩ := List.getElem?_of_mem old
      exact records.distinct ⟨i⟩ other hi
    · rw [List.mem_singleton.mp new]
      exact operation.distinct_of_node made

theorem Records.extend (records : graph.Records log)
    (extended : graph.Extends object key property after) :
    after.Records (log ++ [(.property object key property, .added)]) := by
  obtain ⟨name, properties, hobject, free, hafter⟩ := extended.extended
  have hmade : Log.made (log ++ [(.property object key property, .added)]) = log.made := by
    rw [Log.made_append]
    exact List.append_nil _
  have hself : Log.added (log ++ [(.property object key property, .added)]) object =
      log.added object ++ [(key, property)] := by
    rw [Log.added_append, Log.addition?, if_pos rfl]
    rfl
  have hother : ∀ id, id ≠ object →
      Log.added (log ++ [(.property object key property, .added)]) id = log.added id := by
    intro id h
    rw [Log.added_append, Log.addition?, if_neg h.symm]
    exact List.append_nil _
  constructor
  · intro id
    by_cases same : id = object
    · subst same
      have grown : after.node? id = (graph.node? id).map (Node.withMore [(key, property)]) := by
        rw [hafter, hobject]
        rfl
      rw [grown, hmade, hself, records.node?_eq, Option.map_map]
      exact congrArg (Option.map · _) (funext fun node => node.withMore_withMore _ _)
    · rw [extended.others id same, hmade, hother id same, records.node?_eq]
  · intro id h
    have apart : id ≠ object := by
      rintro rfl
      cases hafter.symm.trans h
    rw [hother id apart]
    exact records.added_eq_nil id (extended.others id apart ▸ h)
  · intro id node h
    by_cases same : id = object
    · subst same
      obtain rfl := Option.some.inj (hafter.symm.trans h)
      have old : (properties.map (·.1)).Nodup := records.distinct id _ hobject
      rw [Node.keys, List.map_append]
      exact List.nodup_append_comm.mp (List.nodup_cons.mpr ⟨free, old⟩)
    · exact records.distinct id node (extended.others id same ▸ h)

theorem Records.refuse (records : graph.Records log) (fault : SchemaFault) :
    graph.Records (log ++ [(.property object key property, .refused fault)]) := by
  have hmade : Log.made (log ++ [(.property object key property, .refused fault)]) = log.made := by
    rw [Log.made_append]
    exact List.append_nil _
  have hadded : ∀ id, Log.added (log ++ [(.property object key property, .refused fault)]) id =
      log.added id := by
    intro id
    rw [Log.added_append]
    exact List.append_nil _
  constructor
  · intro id
    rw [hmade, hadded, records.node?_eq]
  · intro id h
    rw [hadded, records.added_eq_nil id h]
  · exact records.distinct

structure History where
  graph : SchemaGraph
  log : Log

def History.perform (history : History) (operation : Operation) : History :=
  let (answer, after) := history.graph.perform operation
  ⟨after, history.log ++ [(operation, answer)]⟩

def run (operations : List Operation) : History := operations.foldl History.perform ⟨empty, []⟩

theorem Records.perform {history : History} (records : history.graph.Records history.log)
    (operation : Operation) :
    (history.perform operation).graph.Records (history.perform operation).log := by
  rw [History.perform]
  cases hmade : operation.node? with
  | some node =>
      rw [perform_of_node hmade]
      exact records.append hmade
  | none =>
      cases operation with
      | property object key property =>
          rw [SchemaGraph.perform]
          cases h : history.graph.property object key property with
          | ok after => exact records.extend (property_eq_ok_iff.mp h)
          | error fault => exact records.refuse fault
      | _ => cases hmade

theorem records_run (operations : List Operation) :
    (run operations).graph.Records (run operations).log :=
  List.foldlRecOn (motive := fun history => history.graph.Records history.log) operations
    History.perform records_empty fun _ records operation _ => records.perform operation

/-- A graph that calls led to, and what further calls do to it. -/
structure Sound (graph : SchemaGraph) (log : Log) : Prop where
  recorded : ∀ id : NodeId, graph.node? id =
    (log.made[id.index]?).map (Node.withMore (log.added id))
  distinct : ∀ id name properties, graph.node? id = some (.object name properties) →
    (properties.map (·.1)).Nodup
  appends : ∀ operation node, Operation.node? operation = some node →
    (graph.perform operation).1 = .made ⟨graph.size⟩ ∧
      graph.Appends node (graph.perform operation).2
  extends_iff : ∀ object key property after, graph.property object key property = .ok after ↔
    graph.Extends object key property after
  refuses_iff : ∀ object key property fault, graph.property object key property = .error fault ↔
    graph.Refuses object key property fault
  unchanged : ∀ operation fault, (graph.perform operation).1 = .refused fault →
    (graph.perform operation).2 = graph
  finishes : ∀ root, (∃ schema, graph.finish root = .ok schema) ↔ root.index < graph.size ∧
    ∀ node ∈ graph.nodes, ∀ child ∈ node.children, child.index < graph.size
  finished : ∀ root schema, graph.finish root = .ok schema → schema = ⟨root, graph.nodes⟩ ∧
    (∀ id, schema.compile ≠ .error (.unknownNode id)) ∧
    ∀ start, schema.Reachable start ∨ start.index < graph.size →
      ∀ opened id, schema.Visits start opened id → ¬ schema.Dangling id

theorem perform_of_refused (refused : (graph.perform operation).1 = .refused fault) :
    (graph.perform operation).2 = graph := by
  cases hmade : operation.node? with
  | some node =>
      rw [perform_of_node hmade] at refused
      cases refused
  | none =>
      cases operation with
      | property object key property =>
          rw [perform] at refused ⊢
          cases h : graph.property object key property with
          | ok after =>
              rw [h] at refused
              cases refused
          | error fault => rfl
      | _ => cases hmade

/-- Whatever calls were made before, and whether they failed or not: a graph holds the nodes that
were made and the properties that were added, in order and under distinct keys, a call that fails
changes nothing, and a graph can be finished if and only if every handle in it refers to a node.
Neither compiling nor describing what was finished then meets a handle that does not. -/
theorem sound_run (operations : List Operation) :
    (run operations).graph.Sound (run operations).log where
  recorded := (records_run operations).node?_eq
  distinct := fun id _ _ => (records_run operations).distinct id _
  appends := fun _ node made => by
    rw [perform_of_node made]
    exact ⟨rfl, appends_append _ node⟩
  extends_iff := fun _ _ _ _ => property_eq_ok_iff
  refuses_iff := fun _ _ _ _ => property_eq_error_iff
  unchanged := fun _ _ => perform_of_refused
  finishes := fun _ => exists_finish_iff
  finished := by
    intro root schema finished
    obtain ⟨rfl, complete⟩ := finish_eq_ok_iff.mp finished
    refine ⟨rfl, complete.compile_ne_unknownNode, fun start known opened id visits => ?_⟩
    refine complete.not_dangling_of_visits ?_ visits
    exact known.elim (complete.closed start) fun inside => Schema.not_dangling_iff.mpr inside

end SchemaGraph
end Conform
