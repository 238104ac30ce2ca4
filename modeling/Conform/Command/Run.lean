import Conform.Command.Arguments
import Conform.Command.Log
import Conform.Json.Writer
import Conform.Schema.Rendering

namespace Conform

inductive CommandFault where
  | settings (fault : SettingsFault)
  | schemas (directory : Path) (fault : RegistryFault)
  | registry (fault : RegistryFault)

def CommandFault.message : CommandFault → String
  | .settings fault => ": ".intercalate (fault.message :: fault.cause?.toList)
  | .schemas directory fault =>
    ": ".intercalate
      (s!"failed to load schemas from {directory}" :: fault.message :: fault.cause?.toList)
  | .registry fault => ": ".intercalate (fault.message :: fault.cause?.toList)

/-- What a run yields: a result, or the fault that ended it, with the log up to there. -/
structure Run (α : Type) where
  log : List LogEntry
  result : Except CommandFault α

namespace Run

def bind (run : Run α) (next : α → Run β) : Run β :=
  match run.result with
  | .error fault => ⟨run.log, .error fault⟩
  | .ok a => ⟨run.log ++ (next a).log, (next a).result⟩

instance : Monad Run where
  pure a := ⟨[], .ok a⟩
  bind := bind

def tell (log : List LogEntry) : Run Unit := ⟨log, .ok ()⟩

def ofExcept (result : Except CommandFault α) : Run α := ⟨[], result⟩

end Run

structure Output where
  text : String
  exitCode : Nat

namespace Task

def settings (files : Files) : Option Path → Run Settings
  | none => return .default
  | some path => do
    let settings ← .ofExcept ((Settings.load files path).mapError .settings)
    .tell [Log.settingsLoaded path settings]
    return settings

def registry (files : Files) (directory : Path) : Run Registry :=
  let loading := Registry.empty.loadDirectory files directory
  ⟨Log.loading directory loading,
    match loading.fault with
    | some fault => .error (.schemas directory fault)
    | none => .ok loading.registry⟩

def reports (files : Files) (registry : Registry) (schema : String) (limit : Nat)
    (documents : List Path) : Run (List Report) := do
  let validator ← .ofExcept ((registry.validator schema).mapError .registry)
  let (reports, fault) := Report.ofFiles files validator limit documents
  .tell (Log.reports validator limit reports)
  match fault with
  | some fault => .ofExcept (.error (.registry fault))
  | none => return reports

/-- The exit code is 0 if all documents are valid, and 1 otherwise. -/
def output (format : ReportFormat) (reports : List Report) : Output where
  text := match format with
    | .text => Report.listText reports
    | .json => (Report.listJson reports).pretty ++ "\n"
  exitCode := if reports.all (·.isValid) then 0 else 1

def perform (files : Files) (settings : Settings) (directory : Path) : Task → Run Output
  | .validate schema documents limit format => do
    let registry ← registry files directory
    .tell [Log.registryLoaded directory registry]
    let reports ← reports files registry schema (limit.getD settings.limit) documents
    return output (format.getD settings.format) reports
  | .render schema withNodes => do
    let registry ← registry files directory
    let schema ← .ofExcept ((registry.schema schema).mapError .registry)
    return ⟨schema.listing withNodes, 0⟩
  | .list => do
    let registry ← registry files directory
    return ⟨← .ofExcept (registry.listing.mapError .registry), 0⟩

end Task

namespace Invocation

def schemaDirectory (invocation : Invocation) (settings : Settings) : Path :=
  invocation.schemas.getD settings.schemaDirectory

def run (files : Files) (invocation : Invocation) : Run Output := do
  .tell [Log.starting]
  let settings ← Task.settings files invocation.config
  invocation.task.perform files settings (invocation.schemaDirectory settings)

def perform (files : Files) (invocation : Invocation) : Output × List LogEntry :=
  let run := invocation.run files
  let shown := fun (log : List LogEntry) =>
    log.filter fun entry => entry.level.verbosity ≤ invocation.verbosity
  match run.result with
  | .ok output => (output, shown run.log)
  | .error fault => (⟨"", 2⟩, shown (run.log ++ [Log.failed fault.message]))

end Invocation

def versionLine : String := s!"shapeguard {version}\n"

end Conform
