import Conform.Registry.Fault
import Conform.Yaml.Expansion

namespace Conform.Document

def format (path : Path) : Format :=
  if path.ending? = some "yaml" ∨ path.ending? = some "yml" then .yaml else .json

/-- A JSON document, in which a repeated key keeps its first position and takes its last value. -/
def ofJsonText? (text : String) : Option Json := do
  let document ← Json.ofFileText? (fun _ => false) text
  guard (document.depth ≤ Json.depthLimit)
  return document.merged

def ofText : Format → String → Except DocumentDefect Json
  | .json, text =>
    match ofJsonText? text with
    | some document => .ok document
    | none => .error (.malformed .json)
  | .yaml, text =>
    match Yaml.ofText? text with
    | some value => value.toJson.mapError .noJson
    | none => .error (.malformed .yaml)

private def read (files : Files) (path : Path) : Except DocumentDefect Json := do
  let text ← (files.read path).mapError DocumentDefect.unreadable
  ofText (format path) text

def load (files : Files) (path : Path) : Except RegistryFault Json :=
  (read files path).mapError (.documentLoad path)

end Conform.Document
