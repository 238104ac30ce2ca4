import Conform.Files.Basic
import Conform.Json.Basic
import Conform.Text.Blank
import Conform.Text.Quoted
import Conform.Validator.Validation
import Conform.Yaml.Record

namespace Conform

inductive ReportFormat where
  | text
  | json
deriving DecidableEq

namespace ReportFormat

def name : ReportFormat → String
  | .text => "text"
  | .json => "json"

def ofName? (name : String) : Option ReportFormat := [text, json].find? (·.name == name)

end ReportFormat

structure Settings where
  schemaDirectory : Path
  limit : Nat
  format : ReportFormat
deriving DecidableEq

inductive SettingsFault where
  | unreadable (path : Path) (fault : FileFault)
  | malformed (path : Path)

namespace SettingsFault

def message : SettingsFault → String
  | .unreadable path _ => s!"failed to read config file {path}"
  | .malformed path => s!"invalid config file {path}"

def cause? : SettingsFault → Option String
  | .unreadable _ fault => some fault.message
  | .malformed _ => none

end SettingsFault

namespace Settings

def default : Settings := ⟨⟨"schemas"⟩, defaultLimit, .text⟩

/-- A format by name: the text of a scalar, or the tag of an omitted one. -/
private def readFormat (graph : Yaml.Graph) (node : Yaml.Node Nat) :
    Yaml.Reading ReportFormat := do
  let .scalar properties style text ← graph.follow node | failure
  match properties.tag.bind (·.localName?) with
  | none => ReportFormat.ofName? text
  | some tag =>
    guard (style = .plain)
    match Yaml.ofPlainText? text with
    | some .null => ReportFormat.ofName? tag
    | _ => failure

private def orDefault (name : String) (fields : List (String × Yaml.Node Nat)) (default : α)
    (read : Yaml.Node Nat → Yaml.Reading α) : Yaml.Reading α := do
  match ← Yaml.field? name fields with
  | some node => read node
  | none => return default

private def readFields (graph : Yaml.Graph) : Yaml.Reading Settings := do
  let fields ← graph.fields graph.root
  guard (fields.all fun (name, _) =>
    name ∈ ["schema_dir", "circular_dependency_limit", "format"])
  return {
    schemaDirectory :=
      ← orDefault "schema_dir" fields default.schemaDirectory fun node =>
        return ⟨← graph.text node⟩
    limit := ← orDefault "circular_dependency_limit" fields default.limit graph.natural
    format := ← orDefault "format" fields default.format (readFormat graph) }

/-- The settings that a YAML text makes. Every field may be left out, and no other may be there. -/
def ofText? (text : String) : Option Settings := do
  if Text.isBlankText text then return default
  let graph ← Yaml.Graph.ofText? text
  (readFields graph).run? graph

def load (files : Files) (path : Path) : Except SettingsFault Settings := do
  let text ← (files.read path).mapError (.unreadable path)
  let some settings := ofText? text | throw (.malformed path)
  let base := path.parent?.getD ⟨""⟩
  return { settings with schemaDirectory := base.join settings.schemaDirectory }

def toJson (settings : Settings) : Json :=
  .object [("schema_dir", .string settings.schemaDirectory.text),
    ("circular_dependency_limit", .ofInt settings.limit),
    ("format", .string settings.format.name)]

def outline (settings : Settings) : String :=
  let format := match settings.format with
    | .text => "Text"
    | .json => "Json"
  s!"Config \x7b schema_dir: {Text.quotedPath settings.schemaDirectory.text}, " ++
    s!"circular_dependency_limit: {settings.limit}, format: {format} \x7d"

end Settings
end Conform
