import Conform.Proofs.Validator.Acceptance
import Conform.Proofs.Validator.Replacement

namespace Conform

open Relation

def Node.properties : Node → List (String × Property)
  | .object _ properties => properties
  | _ => []

theorem Node.keys_eq_map_properties (node : Node) : node.keys = node.properties.map (·.1) := by
  cases node <;> rfl

namespace Schema

def propertiesOf (schema : Schema) (ids : List NodeId) : List (String × Property) :=
  ids.flatMap fun id => (schema.node? id).elim [] Node.properties

/-- The node is an intersection of objects, of one at least. -/
structure IntersectsObjects (schema : Schema) (id : NodeId) (members : List NodeId) : Prop where
  node : schema.node? id = some (.intersection members)
  nonempty : members ≠ []
  object : ∀ m ∈ members, ∃ name properties, schema.node? m = some (.object name properties)

/-- The schema with one object in place of an intersection of objects. -/
def merge (schema : Schema) (id : NodeId) (members : List NodeId) (name : String) : Schema :=
  schema.replace id (.object name (schema.propertiesOf members))

variable {schema : Schema} {id m : NodeId} {members : List NodeId} {name : String}

theorem mem_propertiesOf_iff {entry : String × Property} :
    entry ∈ schema.propertiesOf members ↔
      ∃ m ∈ members, ∃ name properties, schema.node? m = some (.object name properties) ∧
        entry ∈ properties := by
  rw [propertiesOf, List.mem_flatMap]
  refine exists_congr fun m => and_congr_right fun _ => ?_
  cases hnode : schema.node? m with
  | none => simp
  | some node => cases node <;> simp [Node.properties]

theorem exists_mem_propertiesOf_iff {key : String} :
    (∃ property, (key, property) ∈ schema.propertiesOf members) ↔
      ∃ m ∈ members, schema.Declares m key := by
  simp only [mem_propertiesOf_iff, Declares, Node.keys_eq_map_properties]
  constructor
  · rintro ⟨property, m, hm, name, properties, hnode, hproperty⟩
    exact ⟨m, hm, _, hnode, List.mem_map_of_mem hproperty⟩
  · rintro ⟨m, hm, node, hnode, hkey⟩
    obtain ⟨⟨_, property⟩, hproperty, rfl⟩ := List.mem_map.mp hkey
    cases node with
    | object name properties => exact ⟨property, m, hm, name, properties, hnode, hproperty⟩
    | _ => cases hproperty

/-! What the merged object has and who knows its keys. -/

theorem IntersectsObjects.ne (objects : schema.IntersectsObjects id members) (hm : m ∈ members) :
    m ≠ id := by
  rintro rfl
  obtain ⟨name, properties, hnode⟩ := objects.object m hm
  cases objects.node.symm.trans hnode

theorem IntersectsObjects.node?_merge_self (objects : schema.IntersectsObjects id members)
    (name : String) : (schema.merge id members name).node? id =
      some (.object name (schema.propertiesOf members)) :=
  node?_replace_self objects.node _

theorem node?_merge_of_ne (h : m ≠ id) :
    (schema.merge id members name).node? m = schema.node? m :=
  node?_replace_of_ne h

theorem IntersectsObjects.propertiesOf_merge (objects : schema.IntersectsObjects id members)
    (name : String) :
    (schema.merge id members name).propertiesOf members = schema.propertiesOf members :=
  List.flatMap_congr fun m hm => by rw [node?_merge_of_ne (objects.ne hm)]

theorem IntersectsObjects.declares_merge_iff (objects : schema.IntersectsObjects id members)
    (name key : String) : (schema.merge id members name).Declares id key ↔
      ∃ m ∈ members, schema.Declares m key := by
  rw [declares_iff_of_node (objects.node?_merge_self name), Node.keys,
    ← exists_mem_propertiesOf_iff, List.mem_map]
  simp

theorem mem_keysFrom_iff_of_object {properties : List (String × Property)} {key : String}
    (hnode : schema.node? m = some (.object name properties)) :
    key ∈ schema.keysFrom m ↔ schema.Declares m key := by
  rw [mem_keysFrom_iff, Schema.mem_keysBelow_iff]
  refine or_iff_left ?_
  rintro ⟨below, hstep, -⟩
  cases (combines_iff_of_node hnode).mp hstep

theorem IntersectsObjects.mem_keysBelow_iff (objects : schema.IntersectsObjects id members)
    {key : String} : key ∈ schema.keysBelow id ↔ ∃ m ∈ members, schema.Declares m key := by
  rw [Schema.mem_keysBelow_iff]
  refine exists_congr fun m => ?_
  rw [combines_iff_of_node objects.node]
  refine and_congr_right fun hm => ?_
  obtain ⟨name, properties, hnode⟩ := objects.object m hm
  exact mem_keysFrom_iff_of_object hnode

theorem IntersectsObjects.object_merge (objects : schema.IntersectsObjects id members)
    (name : String) :
    ∀ m ∈ members, ∃ title properties,
      (schema.merge id members name).node? m = some (.object title properties) := by
  intro m hm
  rw [node?_merge_of_ne (objects.ne hm)]
  exact objects.object m hm

theorem IntersectsObjects.keysFrom_merge (objects : schema.IntersectsObjects id members)
    (start : NodeId) : (schema.merge id members name).keysFrom start = schema.keysFrom start := by
  have declares := objects.declares_merge_iff name
  refine keysFrom_replace objects.node (.object name (schema.propertiesOf members)) ?_ nofun nofun
    ?_ start
  · intro key hkey
    have hdeclares := (declares_iff_of_node (objects.node?_merge_self name)).mpr hkey
    have below := objects.mem_keysBelow_iff.mpr ((declares key).mp hdeclares)
    exact schema.keysBelow_subset_keysFrom id below
  · intro m hm key hkey
    obtain ⟨title, properties, hnode⟩ := objects.object_merge name m hm
    have hdeclares := (mem_keysFrom_iff_of_object hnode).mp hkey
    rw [Declares, node?_merge_of_ne (objects.ne hm)] at hdeclares
    exact ⟨id, .refl, (declares key).mpr ⟨m, hm, hdeclares⟩⟩

/-! Matching. -/

/-- An intersection around the node, if there is one, knows its keys. -/
def Covers (schema : Schema) (widened : Option (Set String)) (id : NodeId) : Prop :=
  ∀ keys ∈ widened, schema.keysFrom id ⊆ keys

theorem covers_none : schema.Covers none id := nofun

theorem Covers.member {widened known : Option (Set String)} (covers : schema.Covers widened id)
    (hm : schema.Combines id m)
    (hknown : known = widened ∨ known = some (widened.getD (schema.keysBelow id))) :
    schema.Covers known m := by
  rcases hknown with rfl | rfl
  · exact fun keys hkeys key hkey => covers keys hkeys (mem_keysFrom_of_combines hm hkey)
  · rintro _ ⟨rfl⟩ key hkey
    cases widened with
    | none => exact Schema.mem_keysBelow_iff.mpr ⟨m, hm, hkey⟩
    | some keys => exact covers keys rfl (mem_keysFrom_of_combines hm hkey)

/-- All of some objects match, each widened by the keys that all of them have together, exactly if
an object does that has all their properties. -/
theorem forall_matches_iff_fits (id : NodeId) (name : String) {widened : Option (Set String)}
    {value : Json} {known : Set String}
    (object : ∀ m ∈ members, ∃ name properties, schema.node? m = some (.object name properties))
    (nonempty : members ≠ [])
    (own : ∀ key, key ∈ known ↔ ∃ property, (key, property) ∈ schema.propertiesOf members)
    (covers : ∀ keys ∈ widened, known ⊆ keys) :
    (∀ m ∈ members, schema.Matches m (some (widened.getD known)) value) ↔
      schema.Fits schema.Matches id widened value (.object name (schema.propertiesOf members)) := by
  have wide : ∀ key, (∃ property, (key, property) ∈ schema.propertiesOf members) ∨
      key ∈ widened.getD ∅ ↔ key ∈ widened.getD known := by
    intro key
    rw [← own]
    cases widened with
    | none => exact or_iff_left (Set.notMem_empty key)
    | some keys => exact or_iff_right_of_imp fun h => covers keys rfl h
  constructor
  · intro each
    obtain ⟨first, hfirst⟩ := List.exists_mem_of_ne_nil members nonempty
    obtain ⟨_, firstProperties, hfirstNode⟩ := object first hfirst
    obtain ⟨entries, rfl, -, -, knownFirst⟩ :=
      (matches_iff_of_node hfirstNode).mp (each first hfirst)
    refine ⟨entries, rfl, ?_, ?_, ?_⟩
    · intro key property value hproperty hfield
      obtain ⟨m, hm, _, properties, hnode, hproperty⟩ := mem_propertiesOf_iff.mp hproperty
      obtain ⟨_, ⟨rfl⟩, present, -, -⟩ := (matches_iff_of_node hnode).mp (each m hm)
      exact present key property value hproperty hfield
    · intro key property hproperty hfield
      obtain ⟨m, hm, _, properties, hnode, hproperty⟩ := mem_propertiesOf_iff.mp hproperty
      obtain ⟨_, ⟨rfl⟩, -, absent, -⟩ := (matches_iff_of_node hnode).mp (each m hm)
      exact absent key property hproperty hfield
    · intro key value hentry
      rw [wide]
      rcases knownFirst key value hentry with ⟨property, hproperty⟩ | hkey
      · rw [← wide]
        exact .inl ⟨property, mem_propertiesOf_iff.mpr ⟨first, hfirst, _, _, hfirstNode, hproperty⟩⟩
      · exact hkey
  · rintro ⟨entries, rfl, present, absent, known⟩ m hm
    obtain ⟨_, properties, hnode⟩ := object m hm
    have listed : ∀ {entry}, entry ∈ properties → entry ∈ schema.propertiesOf members :=
      fun h => mem_propertiesOf_iff.mpr ⟨m, hm, _, _, hnode, h⟩
    refine .object hnode ?_ ?_ ?_
    · exact fun key property value hproperty => present key property value (listed hproperty)
    · exact fun key property hproperty => absent key property (listed hproperty)
    · exact fun key value hentry => .inr ((wide key).mp (known key value hentry))

/-- What matches one schema matches another that differs at one handle, if the node there can be
made up in the other from what its parts match there. -/
theorem Matches.transfer {other : Schema}
    (same : ∀ start ≠ id, other.node? start = schema.node? start)
    (sameKeys : ∀ start ≠ id, other.keysBelow start = schema.keysBelow start)
    (here : ∀ widened value node, schema.node? id = some node → schema.Covers widened id →
      schema.Fits other.Matches id widened value node → other.Matches id widened value)
    {start : NodeId} {widened : Option (Set String)} {value : Json}
    (h : schema.Matches start widened value) (covers : schema.Covers widened start) :
    other.Matches start widened value := by
  refine Matches.rec_fits (fun start widened value => schema.Covers widened start →
    other.Matches start widened value) ?_ h covers
  intro start widened value node hnode fits covers
  have parts : schema.Fits other.Matches start widened value node := by
    refine fits.transfer rfl ?_ ?_
    · exact fun child part _ matching => matching covers_none
    · intro m known hm hknown matching
      exact matching (covers.member ((combines_iff_of_node hnode).mpr hm) hknown)
  by_cases hstart : start = id
  · subst hstart
    exact here widened value node hnode covers parts
  · rw [matches_iff_of_node ((same start hstart).trans hnode)]
    exact parts.transfer (sameKeys start hstart) (fun _ _ _ h => h) (fun _ _ _ _ h => h)

theorem IntersectsObjects.matches_merge_iff (objects : schema.IntersectsObjects id members)
    {start : NodeId} {value : Json} :
    (schema.merge id members name).Matches start none value ↔ schema.Matches start none value := by
  have merged := objects.node?_merge_self name
  have sameKeys : ∀ start ≠ id,
      (schema.merge id members name).keysBelow start = schema.keysBelow start :=
    fun start => keysBelow_replace_of_ne objects.keysFrom_merge
  have own : ∀ key, key ∈ schema.keysBelow id ↔
      ∃ property, (key, property) ∈ schema.propertiesOf members := fun key => by
    rw [objects.mem_keysBelow_iff, exists_mem_propertiesOf_iff]
  have ownFrom := schema.keysBelow_subset_keysFrom id
  constructor
  · refine fun h => h.transfer (fun start hne => (node?_merge_of_ne hne).symm)
      (fun start hne => (sameKeys start hne).symm) ?_ covers_none
    intro widened value node hnode covers fits
    obtain rfl := Option.some.inj (merged.symm.trans hnode)
    have whole : ∀ keys ∈ widened, schema.keysBelow id ⊆ keys := fun keys hkeys =>
      (ownFrom.trans (objects.keysFrom_merge id).superset).trans (covers keys hkeys)
    rw [matches_iff_of_node objects.node]
    exact (forall_matches_iff_fits id name objects.object objects.nonempty own whole).mpr fits
  · refine fun h => h.transfer (fun start => node?_merge_of_ne) sameKeys ?_ covers_none
    intro widened value node hnode covers fits
    obtain rfl := Option.some.inj (objects.node.symm.trans hnode)
    have whole : ∀ keys ∈ widened, schema.keysBelow id ⊆ keys := fun keys hkeys =>
      ownFrom.trans (covers keys hkeys)
    have object := objects.object_merge name
    rw [← objects.propertiesOf_merge name] at own
    rw [matches_iff_of_node merged, ← objects.propertiesOf_merge name]
    exact (forall_matches_iff_fits id name object objects.nonempty own whole).mp fits

/-- One object with all the properties may stand for an intersection of objects, whether they share
keys or not: the schema still compiles, and it accepts the same values as before. -/
theorem accepts_merge_iff (objects : schema.IntersectsObjects id members) (name : String)
    {validator : Validator} (compiled : schema.compile = .ok validator) :
    ∃ merged, (schema.merge id members name).compile = .ok merged ∧
      ∀ value, merged.validate value 0 = .ok [] ↔ validator.validate value 0 = .ok [] := by
  have reaches : ∀ child ∈ (schema.propertiesOf members).map (·.2.definition),
      ReflTransGen schema.Refers id child := by
    intro child hchild
    obtain ⟨entry, hentry, rfl⟩ := List.mem_map.mp hchild
    obtain ⟨m, hm, _, properties, hnode, hproperty⟩ := mem_propertiesOf_iff.mp hentry
    exact .tail (.single (refers_of_node objects.node hm))
      (refers_of_node hnode (List.mem_map_of_mem hproperty))
  obtain ⟨merged, hmerged⟩ := exists_compile_replace objects.node
    (.object name (schema.propertiesOf members)) reaches nofun ⟨validator, compiled⟩
  refine ⟨merged, hmerged, fun value => ?_⟩
  rw [accepts_iff_matches hmerged, accepts_iff_matches compiled]
  exact objects.matches_merge_iff

theorem accepts_merge_namedLinks : ∃ validator merged, namedLinks.compile = .ok validator ∧
    namedLinks.IntersectsObjects ⟨0⟩ [⟨1⟩, ⟨2⟩] ∧
    (namedLinks.merge ⟨0⟩ [⟨1⟩, ⟨2⟩] "NamedLink").compile = .ok merged ∧
    ∀ value, merged.validate value 0 = .ok [] ↔ validator.validate value 0 = .ok [] := by
  obtain ⟨validator, compiled⟩ := namedLinks_compiles
  have objects : namedLinks.IntersectsObjects ⟨0⟩ [⟨1⟩, ⟨2⟩] := by
    refine ⟨rfl, List.cons_ne_nil _ _, List.forall_mem_cons.mpr ⟨⟨_, _, rfl⟩, ?_⟩⟩
    exact List.forall_mem_singleton.mpr ⟨_, _, rfl⟩
  obtain ⟨merged, hmerged, same⟩ := accepts_merge_iff objects "NamedLink" compiled
  exact ⟨validator, merged, compiled, objects, hmerged, same⟩

end Schema
end Conform
