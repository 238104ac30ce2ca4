import Conform.Command.Run

namespace Conform.Main

private def fileFault : IO.Error → FileFault
  | .noFileOrDirectory .. | .noSuchThing .. => .notFound
  | .inappropriateType _ 20 _ => .notADirectory
  | .inappropriateType _ 21 _ => .isADirectory
  | .invalidArgument _ 36 _ => .nameTooLong
  | .invalidArgument _ 40 _ => .tooManyLinks
  | error => .other (toString error)

private def readText (path : Path) : IO (Except FileFault String) := do
  if path.hasNul then return .error .nulInName
  match ← (IO.FS.readBinFile path.text).toBaseIO with
  | .error error => return .error (fileFault error)
  | .ok content =>
    match String.fromUTF8? content with
    | some text => return .ok text
    | none => return .error .notText

private def depthLimit : Nat := 1000

private def readEntries (found : Array IO.FS.DirEntry) : Nat → IO (List Entry)
  | 0 => return []
  | depth + 1 => found.toList.mapM fun entry => do
    let name := entry.fileName
    match ← entry.path.symlinkMetadata.toBaseIO with
    | .error error => return .unreadable (fileFault error)
    | .ok metadata =>
      match metadata.type with
      | .dir =>
        match ← entry.path.readDir.toBaseIO with
        | .ok inner => return .directory name (← readEntries inner depth)
        | .error error => return .sealed name (fileFault error)
      | .symlink =>
        return if ← entry.path.isDir then .directoryLink name else .file name
      | _ => return .file name

private def readDirectory? (path : Path) : IO (Option (Except FileFault (List Entry))) := do
  if path.hasNul then return none
  let top : IO.FS.DirEntry := ⟨path.text, "."⟩
  if !(← top.path.isDir) then return none
  match ← top.path.readDir.toBaseIO with
  | .ok found => return some (.ok (← readEntries found depthLimit))
  | .error error => return some (.error (fileFault error))

private def filesOf (texts : List (Path × Except FileFault String))
    (directories : List (Path × Option (Except FileFault (List Entry)))) : Files where
  read path := (texts.lookup path).getD (.error .notFound)
  directory? path := (directories.lookup path).join

private def readTexts (paths : List Path) : IO (List (Path × Except FileFault String)) :=
  paths.mapM fun path => return (path, ← readText path)

private def documents : Task → List Path
  | .validate _ documents _ _ => documents
  | _ => []

private def readAhead (invocation : Invocation) : IO Files := do
  let settingsText ← readTexts invocation.config.toList
  match (Task.settings (filesOf settingsText []) invocation.config).result with
  | .error _ => return filesOf settingsText []
  | .ok settings =>
    let directory := invocation.schemaDirectory settings
    let directories := [(directory, ← readDirectory? directory)]
    let schemaPaths := match listDirectory (filesOf [] directories) directory with
      | .ok (found, _) => found
      | .error _ => []
    let texts ← readTexts (schemaPaths ++ documents invocation.task)
    return filesOf (settingsText ++ texts) directories

private def usage : String :=
  "\n".intercalate ["Validates JSON and YAML documents against schemas.", "",
    "shapeguard [-v] [--config FILE] [--log-json] COMMAND", "",
    "validate --schema ID [--schemas DIR] [--circular-limit N] [--format text|json] DOCUMENT...",
    "render --schema ID [--schemas DIR] [--nodes]",
    "list [--schemas DIR]", ""]

private def run (invocation : Invocation) : IO UInt32 := do
  let (output, log) := invocation.perform (← readAhead invocation)
  for entry in log do
    IO.eprintln (if invocation.jsonLog then entry.toJson.compact else entry.line)
  IO.print output.text
  return output.exitCode.toUInt32

def main (arguments : List String) : IO UInt32 := do
  match Request.ofArguments arguments with
  | .error fault =>
    IO.eprintln s!"error: {fault.message}"
    return 2
  | .ok .help =>
    IO.print usage
    return 0
  | .ok .version =>
    IO.print versionLine
    return 0
  | .ok (.run invocation) => run invocation

end Conform.Main

def main (arguments : List String) : IO UInt32 := Conform.Main.main arguments
