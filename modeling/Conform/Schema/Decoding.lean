import Conform.Decoding.Fields
import Conform.Schema.Encoding
import Conform.Schema.Id

namespace Conform

open Decoding

def NodeId.decode : Decoder NodeId
  | .number (.finite (.int n h)) =>
    if 0 ≤ n then .ok ⟨n.toNat⟩ else .error (.invalidValue (.number (.finite (.int n h))) "usize")
  | other => .error (.invalidType other "usize")

def SchemaId.decode : Decoder SchemaId
  | .string s => (SchemaId.ofText s).mapError .schema
  | other => .error (.invalidType other "a string")

def Scalar.decode : Decoder Scalar
  | .string s => .ok (.string s)
  | .number (.finite n) => .ok (.number n)
  | _ => .error (.noVariant "Scalar")

def ValueKind.decode : Decoder ValueKind := variant false ValueKind.tag ValueKind.all

namespace Property

def definitionField : RecordField NodeId := { name := "definition", read := NodeId.decode }

def optionalField : RecordField Bool :=
  { name := "optional", read := boolean, absent := some false }

def decode : Decoder Property
  | .mapping entries => do
    let (definition, isOptional) ← entries₂ definitionField optionalField entries
    return ⟨definition, isOptional⟩
  | .sequence items => do
    let (definition, isOptional) ← items₂ definitionField optionalField
      "struct Property with 2 elements" (fieldsInSequence 2) items
    return ⟨definition, isOptional⟩
  | other => .error (.invalidType other "struct Property")

/-- Properties in order. A repeated key keeps its first position and takes its last property. -/
def decodeAll : Decoder (List (String × Property))
  | .mapping entries => do
    let properties ← entries.mapM fun (key, value) => return (← text key, ← decode value)
    return Json.mergeFields properties
  | other => .error (.invalidType other "a map")

end Property

namespace Node

namespace Kind

def decode : Decoder Kind
  | .string text =>
    match all.find? (·.name == text) with
    | some kind => .ok kind
    | none => .error (.unknownVariant text (all.map name))
  | other => .error (.invalidType other "variant identifier")

end Kind

inductive Body where
  | mapping (entries : List (Yaml × Yaml))
  | sequence (items : List Yaml)

def Body.read₁ (body : Body) (variant : String) (a : RecordField α) :
    Except DecodeFault α :=
  match body with
  | .mapping entries => entries₁ a entries
  | .sequence items =>
    items₁ a s!"struct variant SchemaNode::{variant} with 1 element" (fieldsInSequence 1) items

def Body.read₂ (body : Body) (variant : String) (a : RecordField α) (b : RecordField β) :
    Except DecodeFault (α × β) :=
  match body with
  | .mapping entries => entries₂ a b entries
  | .sequence items =>
    items₂ a b s!"struct variant SchemaNode::{variant} with 2 elements" (fieldsInSequence 2) items

def nameField : RecordField String := { name := "name", read := text }

def Kind.decodeBody (body : Body) : Kind → Except DecodeFault Node
  | .valueType =>
    .valueType <$> body.read₁ "ValueType"
      { name := "type", read := variant true ValueKind.tag ValueKind.all }
  | .literal => .literal <$> body.read₁ "Literal" { name := "value", read := Scalar.decode }
  | .object => do
    let (name, properties) ← body.read₂ "Object" nameField
      { name := "properties", read := Property.decodeAll, absent := some [] }
    return .object name properties
  | .array => .array <$> body.read₁ "Array" { name := "element", read := NodeId.decode }
  | .tuple => .tuple <$> body.read₁ "Tuple" { name := "elements", read := listOf NodeId.decode }
  | .union => .union <$> body.read₁ "Union" { name := "members", read := listOf NodeId.decode }
  | .intersection =>
    .intersection <$> body.read₁ "Intersection" { name := "members", read := listOf NodeId.decode }
  | .enum => do
    let (name, values) ← body.read₂ "Enum" nameField
      { name := "values", read := listOf Scalar.decode }
    return .enum name values

def takeKind (entries : List (Yaml × Yaml)) :
    Except DecodeFault (Kind × List (Yaml × Yaml)) := do
  let (kind, others) ← entries.foldlM (fun (kind, others) (key, value) =>
    match key with
    | .string "kind" => return (← setOnce "kind" kind (Kind.decode value), others)
    | _ => return (kind, others ++ [(key, value)])) (none, [])
  return (← required "kind" kind, others)

/-- A node is a record that names its kind among its fields, or first of all in a sequence. The kind
is read before any other field. -/
def decode : Decoder Node
  | .mapping entries => do
    let (kind, others) ← takeKind entries
    kind.decodeBody (.mapping others)
  | .sequence [] => .error (.missingField "kind")
  | .sequence (kind :: items) => do
    let kind ← Kind.decode kind
    kind.decodeBody (.sequence items)
  | other => .error (.invalidType other "internally tagged enum SchemaNode")

end Node

namespace Schema

def rootField : RecordField NodeId := { name := "root", read := NodeId.decode }

def nodesField : RecordField (List Node) := { name := "nodes", read := listOf Node.decode }

def decode : Decoder Schema
  | .mapping entries => do
    let (root, nodes) ← entries₂ rootField nodesField entries
    return ⟨root, nodes⟩
  | .sequence items => do
    let (root, nodes) ← items₂ rootField nodesField
      "struct Schema with 2 elements" fewerInArray items
    return ⟨root, nodes⟩
  | other => .error (.invalidType other "struct Schema")

end Schema
end Conform
