import Conform.Proofs.Decoding.Fields
import Conform.Proofs.Json.Fields
import Conform.Proofs.Schema.DeclaredKeys
import Conform.Proofs.Yaml.Parts
import Conform.Schema.Decoding

namespace Conform

open Decoding

namespace NodeId

def Fits (id : NodeId) : Prop := id.index < 0x10000000000000000

instance : DecidablePred Fits := fun id => inferInstanceAs (Decidable (id.index < _))

theorem decode_ofJson_toJson {id : NodeId} (fits : id.Fits) :
    decode (.ofJson id.toJson) = .ok id := by
  have inRange : InIntegerRange id.index := by
    rw [Fits] at fits
    omega
  rw [toJson, Json.ofInt, Number.ofInt_of_inRange inRange, Yaml.ofJson, decode,
    if_pos (Int.natCast_nonneg _), Int.toNat_natCast]

theorem fits_of_decode {value : Yaml} {id : NodeId} (h : decode value = .ok id) : id.Fits := by
  unfold decode at h
  split at h
  · rename_i n inRange
    split at h
    · cases h
      have := inRange.2
      change n.toNat < 0x10000000000000000
      omega
    · cases h
  · cases h

theorem decode_ofJson_listToJson {ids : List NodeId} (fit : ∀ id ∈ ids, id.Fits) :
    listOf decode (.ofJson (listToJson ids)) = .ok ids := by
  rw [listToJson, Yaml.ofJson_array, List.map_map]
  exact listOf_written fun id hid => decode_ofJson_toJson (fit id hid)

theorem fit_of_listOf {value : Yaml} {ids : List NodeId} (h : listOf decode value = .ok ids) :
    ∀ id ∈ ids, id.Fits := by
  intro id hid
  obtain ⟨item, hitem⟩ := exists_read_of_listOf h id hid
  exact fits_of_decode hitem

end NodeId

theorem text_ofJson (s : String) : text (.ofJson (.string s)) = .ok s := rfl

theorem Scalar.decode_ofJson_toJson (value : Scalar) :
    decode (.ofJson value.toJson) = .ok value := by
  cases value <;> rfl

theorem Scalar.decode_ofJson_array (values : List Scalar) :
    listOf decode (.ofJson (.array (values.map toJson))) = .ok values := by
  rw [Yaml.ofJson_array, List.map_map]
  exact listOf_written fun value _ => decode_ofJson_toJson value

theorem ValueKind.decode_ofJson_tag (kind : ValueKind) :
    variant true tag all (.ofJson (.string kind.tag)) = .ok kind := by
  cases kind <;> rfl

namespace Property

theorem decode_of_entries {entries : List (Yaml × Yaml)} {definition : NodeId} {isOptional : Bool}
    (h : entries₂ definitionField optionalField entries = .ok (definition, isOptional)) :
    decode (.mapping entries) = .ok ⟨definition, isOptional⟩ := by
  rw [decode, h]
  rfl

theorem decode_ofJson_toJson {property : Property} (fits : property.definition.Fits) :
    decode (.ofJson property.toJson) = .ok property := by
  obtain ⟨definition, isOptional⟩ := property
  have hdefinition : definitionField.read (.ofJson definition.toJson) = .ok definition := by
    simp only [definitionField]
    exact NodeId.decode_ofJson_toJson fits
  rw [toJson, Yaml.ofJson_object]
  apply decode_of_entries
  cases isOptional with
  | true =>
      have distinct : definitionField.name ≠ optionalField.name := by decide
      have hoptional : optionalField.read (.bool true) = .ok true := rfl
      exact entries₂_written distinct hdefinition hoptional
  | false => exact entries₂_written_first hdefinition rfl

theorem fits_of_decode {value : Yaml} {property : Property} (h : decode value = .ok property) :
    property.definition.Fits := by
  have fits : definitionField.Yields property.definition → property.definition.Fits := by
    rintro (⟨item, hitem⟩ | absent)
    · exact NodeId.fits_of_decode hitem
    · cases absent
  cases value with
  | mapping entries =>
      obtain ⟨_, hentries, hproperty⟩ := exists_of_bind_eq_ok h
      cases hproperty
      exact fits (yields_of_entries₂ hentries).1
  | sequence items =>
      obtain ⟨_, hitems, hproperty⟩ := exists_of_bind_eq_ok h
      cases hproperty
      exact fits (yields_of_items₂ hitems).1
  | _ => cases h

theorem mem_keys_toJson_iff (property : Property) : ∃ entries, property.toJson = .object entries ∧
    ("optional" ∈ entries.map (·.1) ↔ property.isOptional) := by
  refine ⟨_, rfl, ?_⟩
  cases property.isOptional <;> simp

theorem isOptional_of_absent {entries : List (String × Json)} {property : Property}
    (h : decode (.ofJson (.object entries)) = .ok property)
    (absent : "optional" ∉ entries.map (·.1)) : property.isOptional = false := by
  rw [Yaml.ofJson_object] at h
  obtain ⟨⟨definition, isOptional⟩, hentries, hproperty⟩ := exists_of_bind_eq_ok h
  cases hproperty
  refine (Option.some.inj (absent_of_entries₂ hentries ?_)).symm
  intro entry hentry hindex
  obtain ⟨⟨key, value⟩, hmem, rfl⟩ := List.mem_map.mp hentry
  have named : ["definition", "optional"].idxOf? key = some 1 := Except.ok.inj hindex
  obtain ⟨_, hkey, _⟩ := List.idxOf?_eq_some_iff.mp named
  exact absent (List.mem_map.mpr ⟨(key, value), hmem, hkey.symm⟩)

theorem decodeAll_ofJson {properties : List (String × Property)}
    (distinct : (properties.map (·.1)).Nodup)
    (fit : ∀ entry ∈ properties, entry.2.definition.Fits) :
    decodeAll (.ofJson (.object (properties.map fun entry => (entry.1, entry.2.toJson)))) =
      .ok properties := by
  rw [Yaml.ofJson_object, List.map_map, decodeAll]
  refine bind_eq_ok ?_ (congrArg Except.ok (Json.mergeFields_of_nodup distinct))
  rw [mapM_eq_ok_iff, List.forall₂_map_left_iff, List.forall₂_same]
  rintro ⟨key, property⟩ hentry
  exact bind_eq_ok rfl (bind_eq_ok (decode_ofJson_toJson (fit _ hentry)) rfl)

theorem distinct_of_decodeAll {value : Yaml} {properties : List (String × Property)}
    (h : decodeAll value = .ok properties) :
    (properties.map (·.1)).Nodup ∧ ∀ entry ∈ properties, entry.2.definition.Fits := by
  cases value with
  | mapping entries =>
      obtain ⟨read, hread, hproperties⟩ := exists_of_bind_eq_ok h
      cases hproperties
      refine ⟨Json.nodup_mergeFields read, fun entry hentry => ?_⟩
      obtain ⟨⟨key, value⟩, -, hpair⟩ :=
        exists_left_of_forall₂ (mapM_eq_ok_iff.mp hread) (Json.mem_of_mem_mergeFields hentry)
      obtain ⟨text, -, others⟩ := exists_of_bind_eq_ok hpair
      obtain ⟨property, hproperty, hentry⟩ := exists_of_bind_eq_ok others
      cases hentry
      exact fits_of_decode hproperty
  | _ => cases h

end Property

namespace Node

theorem Kind.decode_name (kind : Kind) : decode (.string kind.name) = .ok kind := by
  cases kind <;> rfl

theorem takeKind_written (kind : Kind) {others : List (Yaml × Yaml)}
    (unkinded : ∀ entry ∈ others, entry.1 ≠ .string "kind") :
    takeKind ((.string "kind", .string kind.name) :: others) = .ok (kind, others) := by
  rw [takeKind, List.foldlM_cons]
  refine bind_eq_ok (a := (some kind, others)) ?_ rfl
  refine bind_eq_ok (a := (some kind, [])) ?_ (foldlM_append ?_ [])
  · change (do return (← setOnce "kind" none (Kind.decode (.string kind.name)), [])) = _
    rw [Kind.decode_name]
    rfl
  · rintro ⟨key, value⟩ hentry done
    have other : key ≠ .string "kind" := unkinded _ hentry
    simp only
    rfl

theorem decode_written {kind : Kind} {others : List (Yaml × Yaml)}
    (unkinded : ∀ entry ∈ others, entry.1 ≠ .string "kind") :
    decode (.mapping ((.string "kind", .string kind.name) :: others)) =
      kind.decodeBody (.mapping others) := by
  rw [decode, takeKind_written kind unkinded]
  rfl

section Body

variable {α β : Type} {name name' variant : String} {read : Decoder α} {read' : Decoder β}
  {absent : Option α} {absent' : Option β} {u v : Yaml} {x : α} {y : β}

theorem Body.read₁_written (h : read u = .ok x) :
    (Body.mapping [(.string name, u)]).read₁ variant { name, read, absent } = .ok x :=
  entries₁_written h

theorem Body.read₂_written (distinct : name ≠ name') (h : read u = .ok x) (h' : read' v = .ok y) :
    (Body.mapping [(.string name, u), (.string name', v)]).read₂ variant { name, read, absent }
      { name := name', read := read', absent := absent' } = .ok (x, y) :=
  entries₂_written distinct h h'

end Body

structure Writable (node : Node) : Prop where
  fit : ∀ id ∈ node.children, id.Fits
  distinct : node.keys.Nodup

instance : DecidablePred Writable := fun node =>
  decidable_of_iff ((∀ id ∈ node.children, id.Fits) ∧ node.keys.Nodup)
    ⟨fun h => ⟨h.1, h.2⟩, fun h => ⟨h.fit, h.distinct⟩⟩

theorem decodeBody_fields {node : Node} (writable : node.Writable) :
    node.kind.decodeBody
      (.mapping (node.fields.map fun (key, value) => (.string key, .ofJson value))) = .ok node := by
  cases node with
  | valueType kind =>
      simp only [Node.kind, fields, List.map_cons, List.map_nil, Kind.decodeBody]
      rw [Body.read₁_written kind.decode_ofJson_tag]
      rfl
  | literal value =>
      simp only [kind, fields, List.map_cons, List.map_nil, Kind.decodeBody]
      rw [Body.read₁_written value.decode_ofJson_toJson]
      rfl
  | object name properties =>
      have fit : ∀ entry ∈ properties, entry.2.definition.Fits :=
        fun entry hentry => writable.fit _ (List.mem_map_of_mem hentry)
      have distinct : "name" ≠ "properties" := by decide
      have read := Property.decodeAll_ofJson writable.distinct fit
      simp only [kind, fields, List.map_cons, List.map_nil, Kind.decodeBody, nameField]
      rw [Body.read₂_written distinct (text_ofJson name) read]
      rfl
  | array element =>
      have fits : element.Fits := writable.fit element List.mem_cons_self
      simp only [kind, fields, List.map_cons, List.map_nil, Kind.decodeBody]
      rw [Body.read₁_written (NodeId.decode_ofJson_toJson fits)]
      rfl
  | tuple elements =>
      have fit : ∀ id ∈ elements, id.Fits := writable.fit
      simp only [kind, fields, List.map_cons, List.map_nil, Kind.decodeBody]
      rw [Body.read₁_written (NodeId.decode_ofJson_listToJson fit)]
      rfl
  | union members =>
      have fit : ∀ id ∈ members, id.Fits := writable.fit
      simp only [kind, fields, List.map_cons, List.map_nil, Kind.decodeBody]
      rw [Body.read₁_written (NodeId.decode_ofJson_listToJson fit)]
      rfl
  | intersection members =>
      have fit : ∀ id ∈ members, id.Fits := writable.fit
      simp only [kind, fields, List.map_cons, List.map_nil, Kind.decodeBody]
      rw [Body.read₁_written (NodeId.decode_ofJson_listToJson fit)]
      rfl
  | enum name values =>
      have distinct : "name" ≠ "values" := by decide
      simp only [kind, fields, List.map_cons, List.map_nil, Kind.decodeBody, nameField]
      rw [Body.read₂_written distinct (text_ofJson name) (Scalar.decode_ofJson_array values)]
      rfl

theorem decode_ofJson_toJson {node : Node} (writable : node.Writable) :
    decode (.ofJson node.toJson) = .ok node := by
  have unkinded : ∀ entry ∈ node.fields, entry.1 ≠ "kind" := by
    cases node <;> simp [fields]
  rw [toJson, Yaml.ofJson_object, List.map_cons]
  refine (decode_written ?_).trans (decodeBody_fields writable)
  intro entry hentry
  obtain ⟨⟨key, value⟩, hfield, rfl⟩ := List.mem_map.mp hentry
  exact fun same => unkinded _ hfield (Yaml.string.inj same)

theorem Body.yields_of_read₁ {α : Type} {a : RecordField α} {x : α} {body : Body} {variant : String}
    (h : body.read₁ variant a = .ok x) : a.Yields x := by
  cases body with
  | mapping entries => exact yields_of_entries₁ h
  | sequence items => exact yields_of_items₁ h

theorem Body.yields_of_read₂ {α β : Type} {a : RecordField α} {b : RecordField β} {x : α} {y : β}
    {body : Body} {variant : String} (h : body.read₂ variant a b = .ok (x, y)) :
    a.Yields x ∧ b.Yields y := by
  cases body with
  | mapping entries => exact yields_of_entries₂ h
  | sequence items => exact yields_of_items₂ h

theorem writable_of_decodeBody {kind : Kind} {body : Body} {node : Node}
    (h : kind.decodeBody body = .ok node) : node.Writable := by
  cases kind with
  | valueType =>
      obtain ⟨type, -, rfl⟩ := exists_of_map_eq_ok h
      exact ⟨nofun, List.nodup_nil⟩
  | literal =>
      obtain ⟨value, -, rfl⟩ := exists_of_map_eq_ok h
      exact ⟨nofun, List.nodup_nil⟩
  | enum =>
      obtain ⟨_, -, hnode⟩ := exists_of_bind_eq_ok h
      cases hnode
      exact ⟨nofun, List.nodup_nil⟩
  | array =>
      obtain ⟨element, helement, rfl⟩ := exists_of_map_eq_ok h
      obtain ⟨item, hitem⟩ := (Body.yields_of_read₁ helement).exists_read rfl
      exact ⟨List.forall_mem_singleton.mpr (NodeId.fits_of_decode hitem), List.nodup_nil⟩
  | tuple =>
      obtain ⟨elements, helements, rfl⟩ := exists_of_map_eq_ok h
      obtain ⟨item, hitem⟩ := (Body.yields_of_read₁ helements).exists_read rfl
      exact ⟨NodeId.fit_of_listOf hitem, List.nodup_nil⟩
  | union =>
      obtain ⟨members, hmembers, rfl⟩ := exists_of_map_eq_ok h
      obtain ⟨item, hitem⟩ := (Body.yields_of_read₁ hmembers).exists_read rfl
      exact ⟨NodeId.fit_of_listOf hitem, List.nodup_nil⟩
  | intersection =>
      obtain ⟨members, hmembers, rfl⟩ := exists_of_map_eq_ok h
      obtain ⟨item, hitem⟩ := (Body.yields_of_read₁ hmembers).exists_read rfl
      exact ⟨NodeId.fit_of_listOf hitem, List.nodup_nil⟩
  | object =>
      obtain ⟨⟨name, properties⟩, hfields, hnode⟩ := exists_of_bind_eq_ok h
      cases hnode
      rcases (Body.yields_of_read₂ hfields).2 with ⟨item, hitem⟩ | absent
      · obtain ⟨distinct, fit⟩ := Property.distinct_of_decodeAll hitem
        exact ⟨List.forall_mem_map.mpr fit, distinct⟩
      · cases absent
        exact ⟨nofun, List.nodup_nil⟩

theorem writable_of_decode {value : Yaml} {node : Node} (h : decode value = .ok node) :
    node.Writable := by
  cases value with
  | mapping entries =>
      obtain ⟨_, -, hbody⟩ := exists_of_bind_eq_ok h
      exact writable_of_decodeBody hbody
  | sequence items =>
      cases items with
      | nil => cases h
      | cons first rest =>
          obtain ⟨_, -, hbody⟩ := exists_of_bind_eq_ok h
          exact writable_of_decodeBody hbody
  | _ => cases h

end Node

namespace Schema

/-- Whether a schema can be written: its root and its nodes can. Handles need not refer to nodes. -/
structure Writable (schema : Schema) : Prop where
  root : schema.root.Fits
  nodes : ∀ node ∈ schema.nodes, node.Writable

instance : DecidablePred Writable := fun schema =>
  decidable_of_iff (schema.root.Fits ∧ ∀ node ∈ schema.nodes, node.Writable)
    ⟨fun h => ⟨h.1, h.2⟩, fun h => ⟨h.root, h.nodes⟩⟩

theorem decode_ofJson_toJson {schema : Schema} (writable : schema.Writable) :
    decode (.ofJson schema.toJson) = .ok schema := by
  have distinct : rootField.name ≠ nodesField.name := by decide
  have hroot : rootField.read (.ofJson schema.root.toJson) = .ok schema.root := by
    simp only [rootField]
    exact NodeId.decode_ofJson_toJson writable.root
  have hnodes : nodesField.read (.ofJson (.array (schema.nodes.map Node.toJson))) =
      .ok schema.nodes := by
    simp only [nodesField]
    rw [Yaml.ofJson_array, List.map_map]
    exact listOf_written fun node hnode => Node.decode_ofJson_toJson (writable.nodes node hnode)
  rw [toJson, Yaml.ofJson_object, decode]
  exact bind_eq_ok (entries₂_written distinct hroot hnodes) rfl

theorem writable_of_decode {value : Yaml} {schema : Schema} (h : decode value = .ok schema) :
    schema.Writable := by
  have writable : rootField.Yields schema.root ∧ nodesField.Yields schema.nodes →
      schema.Writable := by
    rintro ⟨root, nodes⟩
    obtain ⟨item, hroot⟩ := root.exists_read rfl
    obtain ⟨list, hnodes⟩ := nodes.exists_read rfl
    refine ⟨NodeId.fits_of_decode hroot, fun node hnode => ?_⟩
    obtain ⟨item, hitem⟩ := exists_read_of_listOf hnodes node hnode
    exact Node.writable_of_decode hitem
  cases value with
  | mapping entries =>
      obtain ⟨_, hentries, hschema⟩ := exists_of_bind_eq_ok h
      cases hschema
      exact writable (yields_of_entries₂ hentries)
  | sequence items =>
      obtain ⟨_, hitems, hschema⟩ := exists_of_bind_eq_ok h
      cases hschema
      exact writable (yields_of_items₂ hitems)
  | _ => cases h

/-- A schema is read back from its written form as it was, whatever its handles refer to. What was
read from anything can be written, so reading, writing and reading again is the same as reading. A
property is marked as optional exactly if it is, and without the mark it is not. -/
theorem schemas_round_trip :
    (∀ schema : Schema, schema.Writable → decode (.ofJson schema.toJson) = .ok schema) ∧
    (∀ input schema, decode input = .ok schema → schema.Writable) ∧
    (∀ input, (decode input >>= fun schema => decode (.ofJson schema.toJson)) = decode input) ∧
    (∀ property : Property, ∃ entries, property.toJson = .object entries ∧
      ("optional" ∈ entries.map (·.1) ↔ property.isOptional)) ∧
    ∀ entries property, Property.decode (.ofJson (.object entries)) = .ok property →
      "optional" ∉ entries.map (·.1) → property.isOptional = false := by
  refine ⟨fun schema => decode_ofJson_toJson, fun input schema => writable_of_decode, ?_,
    Property.mem_keys_toJson_iff, fun entries property => Property.isOptional_of_absent⟩
  intro input
  cases hread : decode input with
  | error fault => rfl
  | ok schema => exact bind_eq_ok rfl (decode_ofJson_toJson (writable_of_decode hread))

def extremes : Schema where
  root := ⟨18446744073709551615⟩
  nodes := [
    .valueType .any,
    .literal (.number (.int (-9223372036854775808) (by decide))),
    .object "Pair" [("left", { definition := ⟨0⟩ }),
      ("right", { definition := ⟨18446744073709551615⟩, isOptional := true })],
    .array ⟨2⟩,
    .tuple [⟨0⟩, ⟨1⟩],
    .union [⟨2⟩, ⟨3⟩],
    .intersection [],
    .enum "Limit" [.string "none", .number (.int 18446744073709551615 (by decide)),
      .number (.int 1 (by decide)), .number (.float ⟨false, 1023 <<< 52, by decide⟩),
      .number (.float (.zero true))]]

theorem extremes_round_trip :
    extremes.Writable ∧ decode (.ofJson extremes.toJson) = .ok extremes := by
  have writable : extremes.Writable := by decide
  exact ⟨writable, schemas_round_trip.1 extremes writable⟩

end Schema

end Conform
