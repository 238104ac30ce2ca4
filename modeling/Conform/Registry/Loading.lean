import Conform.Registry.Basic

namespace Conform

def schemaSuffixes : List (String × Format) :=
  [(".shape.json", .json), (".shape.yaml", .yaml), (".shape.yml", .yaml)]

/-- A file name without its suffix, and the format that the suffix tells. -/
def splitSchemaName? (name : String) : Option (String × Format) :=
  schemaSuffixes.findSome? fun (suffix, format) =>
    if suffix.toList.isSuffixOf name.toList then
      some (String.ofList (name.toList.take (name.length - suffix.length)), format)
    else none

mutual

/-- The schema files below a directory, by the names that lead to them from there. Links to
directories are not followed. -/
def schemaFiles (directory : Path) : List Entry → Except RegistryFault (List (List String))
  | [] => .ok []
  | entry :: rest => return (← schemaFilesOf directory entry) ++ (← schemaFiles directory rest)

def schemaFilesOf (directory : Path) : Entry → Except RegistryFault (List (List String))
  | .file name => .ok (if (splitSchemaName? name).isSome then [[name]] else [])
  | .directoryLink _ => .ok []
  | .directory name entries => do
    return (← schemaFiles (directory.join ⟨name⟩) entries).map (name :: ·)
  | .sealed name fault =>
    .error (.schemaLoad (directory.join ⟨name⟩) (.unreadableDirectory fault))
  | .unreadable fault => .error (.file fault)

end

mutual

/-- The links to directories that a search for schema files passes over, up to where it fails. -/
def linksBelow (directory : Path) : List Entry → List Path
  | [] => []
  | entry :: rest =>
    linksOf directory entry ++
      if (schemaFilesOf directory entry).isOk then linksBelow directory rest else []

def linksOf (directory : Path) : Entry → List Path
  | .directoryLink name => [directory.join ⟨name⟩]
  | .directory name entries => linksBelow (directory.join ⟨name⟩) entries
  | _ => []

end

def inOrder (files : List (List String)) : List (List String) :=
  files.mergeSort fun a b => !decide (b < a)

def readSchema (files : Files) (path : Path) : Except RegistryFault (SchemaId × Schema) := do
  let defective : SchemaDefect → RegistryFault := .schemaLoad path
  let some name := path.name? | throw (defective .noFileName)
  let some (stem, format) := splitSchemaName? name
    | throw (defective (.unknownSuffix (schemaSuffixes.map (·.1))))
  let id ← (SchemaId.ofText stem).mapError fun fault => defective (.id fault)
  let text ← (files.read path).mapError .file
  let some schema := Schema.ofText? format text | throw (defective (.malformed format))
  return (id, schema)

def listDirectory (files : Files) (directory : Path) :
    Except RegistryFault (List Path × List Path) := do
  let some listing := files.directory? directory
    | throw (.schemaLoad directory .notADirectory)
  let entries ← listing.mapError fun fault => .schemaLoad directory (.unreadableDirectory fault)
  let found ← schemaFiles directory entries
  return ((inOrder found).map directory.below, linksBelow directory entries)

def passedLinks (files : Files) (directory : Path) : List Path :=
  match files.directory? directory with
  | some (.ok entries) => linksBelow directory entries
  | _ => []

namespace Registry

def loadFile (registry : Registry) (files : Files) (path : Path) :
    Except RegistryFault (SchemaId × Registration) × Registry :=
  match readSchema files path with
  | .error fault => (.error fault, registry)
  | .ok (id, schema) =>
    let (registration, registry) := registry.register id schema
    (registration.map (id, ·), registry)

structure Loading where
  skipped : List Path
  loaded : List (SchemaId × Registration)
  registry : Registry
  /-- What stopped the loading, if it did not reach the end. -/
  fault : Option RegistryFault

def loadFiles (files : Files) (registry : Registry) : List Path → Loading
  | [] => ⟨[], [], registry, none⟩
  | path :: rest =>
    match registry.loadFile files path with
    | (.error fault, registry) => ⟨[], [], registry, some fault⟩
    | (.ok registration, registry) =>
      let loading := loadFiles files registry rest
      { loading with loaded := registration :: loading.loaded }

def loadDirectory (registry : Registry) (files : Files) (directory : Path) : Loading :=
  match listDirectory files directory with
  | .error fault => ⟨passedLinks files directory, [], registry, some fault⟩
  | .ok (found, skipped) => { loadFiles files registry found with skipped }

end Registry
end Conform
