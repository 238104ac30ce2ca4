import Conform.Command.Settings
import Conform.Registry.Loading
import Conform.Report.Basic

namespace Conform

inductive LogLevel where
  | error
  | warning
  | info
  | debug
deriving DecidableEq

namespace LogLevel

def name : LogLevel → String
  | .error => "ERROR"
  | .warning => "WARN"
  | .info => "INFO"
  | .debug => "DEBUG"

def verbosity : LogLevel → Nat
  | .error => 0
  | .warning => 0
  | .info => 1
  | .debug => 2

end LogLevel

inductive LogValue where
  | text (s : String)
  /-- Text that stands between quotes on a line. -/
  | quoted (s : String)
  | number (n : Nat)
  | boolean (b : Bool)

namespace LogValue

def line : LogValue → String
  | .text s => s
  | .quoted s => Text.quoted s
  | .number n => toString n
  | .boolean b => toString b

def toJson : LogValue → Json
  | .text s => .string s
  | .quoted s => .string s
  | .number n => .ofInt n
  | .boolean b => .bool b

end LogValue

/-- A character of a message on a line. Those that a terminal could take for a command are escaped;
other control characters, line breaks included, are not. -/
private def shield (c : Char) : List Char :=
  if c ∈ ['\x07', '\x08', '\x0c', '\x1b', '\x7f'] then
    let digits := Nat.toDigits 16 c.toNat
    ['\\', 'x'] ++ List.replicate (2 - digits.length) '0' ++ digits
  else if 0x80 ≤ c.toNat ∧ c.toNat ≤ 0x9F then
    ['\\', 'u', '\x7b'] ++ Nat.toDigits 16 c.toNat ++ ['\x7d']
  else [c]

structure LogEntry where
  level : LogLevel
  message : String
  fields : List (String × LogValue)

namespace LogEntry

def line (entry : LogEntry) : String :=
  " ".intercalate <|
    entry.level.name :: String.ofList (entry.message.toList.flatMap shield) ::
      entry.fields.map fun (name, value) => s!"{name}={value.line}"

/-- A repeated field keeps its first position and takes its last value. -/
def toJson (entry : LogEntry) : Json :=
  let fields := ("message", .string entry.message) ::
    entry.fields.map fun (name, value) => (name, value.toJson)
  .object [("level", .string entry.level.name), ("fields", .object (Json.mergeFields fields))]

end LogEntry

def version : String := "0.1.0"

namespace Log

def starting : LogEntry := ⟨.debug, "shapeguard starting", [("version", .quoted version)]⟩

def settingsLoaded (path : Path) (settings : Settings) : LogEntry :=
  ⟨.debug, "loaded configuration",
    [("config", .text path.text), ("config", .text settings.outline)]⟩

private def registered (id : SchemaId) (registration : Registry.Registration) : List LogEntry :=
  let validator := registration.validator
  ⟨.debug, "compiled schema",
    [("slots", .number validator.slotCount), ("root", .text validator.rootType)]⟩ ::
  if registration.replaced then
    [⟨.warning, "replacing registered schema", [("schema", .text id.text)]⟩]
  else []

def loading (directory : Path) (loading : Registry.Loading) : List LogEntry :=
  loading.skipped.map (fun path =>
    ⟨.debug, "skipping symlinked directory", [("path", .text path.text)]⟩) ++
  loading.loaded.flatMap (fun (id, registration) => registered id registration) ++
  if loading.fault.isNone then
    [⟨.debug, "loaded schema directory",
      [("dir", .text directory.text), ("schemas", .number loading.loaded.length)]⟩]
  else []

def registryLoaded (directory : Path) (registry : Registry) : LogEntry :=
  ⟨.info, "loaded schema registry",
    [("schemas", .number registry.size), ("dir", .text directory.text)]⟩

private def validated (validator : Validator) (limit : Nat) (report : Report) : List LogEntry :=
  report.limitCount?.toList.map (fun count =>
    ⟨.debug, "circular dependency limit reached",
      [("count", .number count), ("limit", .number limit),
        ("root", .text validator.rootType)]⟩) ++
  [⟨.debug, "validated document",
    [("document", .text report.document.text), ("valid", .boolean report.isValid)]⟩]

def reports (validator : Validator) (limit : Nat) (reports : List Report) : List LogEntry :=
  reports.flatMap (validated validator limit)

def failed (message : String) : LogEntry := ⟨.error, message, []⟩

end Log
end Conform
