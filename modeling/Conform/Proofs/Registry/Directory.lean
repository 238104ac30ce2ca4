import Conform.Proofs.Files.Tree
import Conform.Proofs.Registry.History
import Conform.Proofs.Registry.SchemaFiles
import Conform.Proofs.Validator.Compilation
import Mathlib.Data.List.Lex
import Mathlib.Order.Bounds.Defs

/-!
Loading a directory. In which order its files are found makes no difference, since they are loaded
in the order of their paths: of several files for an id the last one wins, and the first file that
fails is the end of it.
-/

namespace Conform

theorem increasing_inOrder {files : List (List String)} (distinct : files.Nodup) :
    (inOrder files).Pairwise (· < ·) := by
  have distinct' : (inOrder files).Nodup := (List.mergeSort_perm _ _).nodup_iff.mpr distinct
  exact (pairwise_inOrder files).imp₂ (fun _ _ h h' => lt_of_le_of_ne (not_lt.mp h) h') distinct'

namespace FileTree

variable {tree tree' : FileTree} {around : List String} {directory : Path} {place : Place}
  {entries entries' : List (String × FileTree)} {files files' : List (List String)}

/-- The schema files below a directory, each once, in the order of their paths. -/
structure ListsSchemaFiles (tree : FileTree) (around : List String)
    (entries : List (String × FileTree)) (files : List (List String)) : Prop where
  increasing : files.Pairwise (· < ·)
  mem_iff : ∀ names, names ∈ files ↔ tree.HoldsSchemaFile around entries names

theorem ListsSchemaFiles.eq_of_relisted (relisted : tree.Relisted tree')
    (same : Relisted (.directory entries) (.directory entries'))
    (lists : tree.ListsSchemaFiles around entries files)
    (lists' : tree'.ListsSchemaFiles around entries' files') : files' = files := by
  have distinct : files.Nodup := lists.increasing.imp ne_of_lt
  have distinct' : files'.Nodup := lists'.increasing.imp ne_of_lt
  refine List.Perm.eq_of_pairwise (fun _ _ _ _ h h' => (lt_asymm h h').elim) lists'.increasing
    lists.increasing ((List.perm_ext_iff_of_nodup distinct' distinct).mpr fun names => ?_)
  rw [lists.mem_iff, lists'.mem_iff]
  exact ⟨fun held => held.relist relisted.symm same.symm, fun held => held.relist relisted same⟩

theorem exists_listDirectory (read : Path → Except FileFault String)
    (wellFormed : WellFormed (.directory entries))
    (found : tree.find directory = .ok (place, .directory entries)) :
    ∃ files skipped, tree.ListsSchemaFiles (place.getD []) entries files ∧
      listDirectory ⟨read, tree.files.directory?⟩ directory =
        .ok (files.map directory.below, skipped) := by
  obtain ⟨files, hfiles, distinct, members⟩ :=
    finds_schemaFiles tree (place.getD []) entries directory wellFormed
  refine ⟨inOrder files, linksBelow directory (tree.entriesOf (place.getD []) entries),
    ⟨increasing_inOrder distinct, fun names => ?_⟩, ?_⟩
  · rw [inOrder, List.mem_mergeSort, members]
  · have listing : tree.files.directory? directory =
        some (.ok (tree.entriesOf (place.getD []) entries)) := by
      change tree.directory? directory = _
      rw [directory?, found]
    exact Registry.listDirectory_eq_ok listing hfiles

theorem directory?_of_nowhere
    (nowhere : ∀ place entries, tree.find directory ≠ .ok (place, .directory entries)) :
    tree.files.directory? directory = none := by
  change tree.directory? directory = none
  rw [directory?]
  split
  · rename_i found
    exact (nowhere _ _ found).elim
  · rfl

theorem HoldsSchemaFile.isFileFor {names : List String} {files : Files} {id : SchemaId}
    {schema : Schema} (held : tree.HoldsSchemaFile around entries names)
    (wellFormed : WellFormed (.directory entries))
    (read : readSchema files (directory.below names) = .ok (id, schema)) :
    IsFileFor id.text names := by
  obtain ⟨before, name, other, rfl, noSlash, named⟩ := held.exists_last wellFormed
  rw [directory.below_append_singleton] at read
  rw [isFileFor_append_singleton]
  exact readSchema_isSchemaName (named.name?_join _ noSlash) read

end FileTree

namespace Registry

variable {registry after : Registry} {files : Files} {path : Path} {paths rest : List Path}
  {id : String}

theorem exists_of_loadFile_eq_ok {entry : SchemaId × Registration}
    (loaded : registry.loadFile files path = (.ok entry, after)) :
    ∃ named schema validator, readSchema files path = .ok (named, schema) ∧
      schema.compile = .ok validator ∧ after.schemas = registry.schemas.insert named schema ∧
      after.validators = registry.validators.insert named validator := by
  cases hread : readSchema files path with
  | error fault =>
      rw [loadFile_of_readSchema_error hread] at loaded
      cases loaded
  | ok read =>
      obtain ⟨named, schema⟩ := read
      rw [loadFile_of_readSchema_ok hread] at loaded
      cases hcompile : schema.compile with
      | error fault =>
          rw [register_of_compile_error hcompile] at loaded
          cases loaded
      | ok validator =>
          rw [register_of_compile_ok hcompile] at loaded
          cases loaded
          exact ⟨named, schema, validator, rfl, hcompile, rfl, rfl⟩

theorem loadFile_ne_error {named : SchemaId} {schema : Schema} {validator : Validator}
    {fault : RegistryFault} (spelled : SpellsSchema files path named schema)
    (compiled : schema.compile = .ok validator) :
    (registry.loadFile files path).1 ≠ .error fault := by
  rw [loadFile_of_readSchema_ok (readSchema_eq_ok_iff.mpr spelled),
    register_of_compile_ok compiled]
  exact fun failed => by cases failed

def Holds (registry : Registry) (files : Files) (path : Path) (id : String) : Prop :=
  ∃ named schema validator, readSchema files path = .ok (named, schema) ∧ named.text = id ∧
    schema.compile = .ok validator ∧ registry.schemas.get? id = some schema ∧
    registry.validators.get? id = some validator

def SameUnder (id : String) (registry after : Registry) : Prop :=
  after.schemas.get? id = registry.schemas.get? id ∧
    after.validators.get? id = registry.validators.get? id

namespace LoadsAll

theorem exists_append {before : List Path}
    (loads : LoadsAll files registry (before ++ rest) after) :
    ∃ next, LoadsAll files registry before next ∧ LoadsAll files next rest after := by
  induction before generalizing registry with
  | nil => exact ⟨registry, .nil _, loads⟩
  | cons path before ih =>
      cases loads with
      | cons first others =>
          obtain ⟨next, loads, loads'⟩ := ih others
          exact ⟨next, .cons first loads, loads'⟩

theorem sameUnder (loads : LoadsAll files registry paths after)
    (other : ∀ path ∈ paths, ∀ named schema, readSchema files path = .ok (named, schema) →
      named.text ≠ id) : SameUnder id registry after := by
  induction loads with
  | nil registry => exact ⟨rfl, rfl⟩
  | cons first _ ih =>
      rw [List.forall_mem_cons] at other
      obtain ⟨named, schema, validator, read, -, schemas, validators⟩ :=
        exists_of_loadFile_eq_ok first
      have new := other.1 named schema read
      obtain ⟨sameSchema, sameValidator⟩ := ih other.2
      rw [schemas, IdMap.get?_insert, if_neg new] at sameSchema
      rw [validators, IdMap.get?_insert, if_neg new] at sameValidator
      exact ⟨sameSchema, sameValidator⟩

theorem holds_last {before : List Path}
    (loads : LoadsAll files registry (before ++ path :: rest) after)
    (named : ∀ named schema, readSchema files path = .ok (named, schema) → named.text = id)
    (last : ∀ path ∈ rest, ∀ named schema, readSchema files path = .ok (named, schema) →
      named.text ≠ id) : after.Holds files path id := by
  obtain ⟨next, -, loads⟩ := loads.exists_append
  cases loads with
  | cons first others =>
      obtain ⟨other, schema, validator, read, compiled, schemas, validators⟩ :=
        exists_of_loadFile_eq_ok first
      obtain rfl := named other schema read
      obtain ⟨sameSchema, sameValidator⟩ := others.sameUnder last
      refine ⟨other, schema, validator, read, rfl, compiled, ?_, ?_⟩
      · rw [sameSchema, schemas, IdMap.get?_insert, if_pos rfl]
      · rw [sameValidator, validators, IdMap.get?_insert, if_pos rfl]

end LoadsAll

theorem loadsAll_of_no_fault (reached : (loadFiles files registry paths).fault = none) :
    LoadsAll files registry paths (loadFiles files registry paths).registry ∧
      (loadFiles files registry paths).loaded.length = paths.length := by
  induction paths generalizing registry with
  | nil => exact ⟨.nil _, rfl⟩
  | cons path rest ih =>
      rw [loadFiles] at reached ⊢
      cases hload : registry.loadFile files path with
      | mk answer next =>
          rw [hload] at reached
          cases answer with
          | error fault => cases reached
          | ok entry =>
              obtain ⟨loads, counted⟩ := ih reached
              exact ⟨.cons hload loads, congrArg (· + 1) counted⟩

/-- How the schema files to which the names `visited` lead below a directory are loaded. -/
structure LoadsInOrder (registry : Registry) (files : Files) (directory : Path)
    (visited : List (List String)) (loading : Loading) : Prop where
  counted : loading.fault = none → loading.loaded.length = visited.length
  latest : loading.fault = none → ∀ id, (∃ names ∈ visited, IsFileFor id names) →
    ∃ names, IsGreatest {names | names ∈ visited ∧ IsFileFor id names} names ∧
      loading.registry.Holds files (directory.below names) id
  others : loading.fault = none → ∀ id, (∀ names ∈ visited, ¬ IsFileFor id names) →
    SameUnder id registry loading.registry
  stopped : ∀ fault, loading.fault = some fault → ∃ before names after,
    visited = before ++ names :: after ∧
    LoadsAll files registry (before.map directory.below) loading.registry ∧
    (loading.registry.loadFile files (directory.below names)).1 = .error fault

theorem exists_last_file {visited : List (List String)}
    (file : ∃ names ∈ visited, IsFileFor id names) : ∃ before names after,
      visited = before ++ names :: after ∧ IsFileFor id names ∧
        ∀ names ∈ after, ¬ IsFileFor id names := by
  induction visited with
  | nil => simp at file
  | cons first rest ih =>
      by_cases later : ∃ names ∈ rest, IsFileFor id names
      · obtain ⟨before, names, after, rfl, hnames, last⟩ := ih later
        exact ⟨first :: before, names, after, rfl, hnames, last⟩
      · push Not at later
        obtain ⟨names, hnames, hfile⟩ := file
        rcases List.mem_cons.mp hnames with rfl | hrest
        · exact ⟨[], names, rest, rfl, hfile, later⟩
        · exact (later names hrest hfile).elim

theorem loadsInOrder {directory : Path} {visited : List (List String)}
    (increasing : visited.Pairwise (· < ·))
    (named : ∀ names ∈ visited, ∀ id schema,
      readSchema files (directory.below names) = .ok (id, schema) → IsFileFor id.text names) :
    registry.LoadsInOrder files directory visited
      (loadFiles files registry (visited.map directory.below)) where
  counted := fun reached => by
    rw [(loadsAll_of_no_fault reached).2, List.length_map]
  latest := fun reached id file => by
    obtain ⟨before, names, after, rfl, hnames, last⟩ := exists_last_file file
    refine ⟨names, ⟨⟨List.mem_append_right _ List.mem_cons_self, hnames⟩, ?_⟩, ?_⟩
    · rintro other ⟨hother, hfile⟩
      rcases List.mem_append.mp hother with hbefore | hafter
      · have earlier := (List.pairwise_append.mp increasing).2.2 other hbefore
        exact le_of_lt (earlier names List.mem_cons_self)
      · rcases List.mem_cons.mp hafter with rfl | hafter
        · exact le_refl _
        · exact (last other hafter hfile).elim
    · rw [List.map_append, List.map_cons] at reached ⊢
      rw [List.forall_mem_append, List.forall_mem_cons] at named
      refine (loadsAll_of_no_fault reached).1.holds_last ?_ ?_
      · exact fun other schema read => (named.2.1 other schema read).unique hnames
      · rw [List.forall_mem_map]
        rintro other hother found schema read rfl
        exact last other hother (named.2.2 other hother found schema read)
  others := fun reached id none => by
    refine (loadsAll_of_no_fault reached).1.sameUnder ?_
    rw [List.forall_mem_map]
    rintro names hnames found schema read rfl
    exact none names hnames (named names hnames found schema read)
  stopped := fun fault stopped => by
    obtain ⟨before, path, rest, hpaths, loads, failed⟩ := exists_of_loadFiles_fault stopped
    obtain ⟨first, others, rfl, rfl, hothers⟩ := List.map_eq_append_iff.mp hpaths
    obtain ⟨names, after, rfl, rfl, -⟩ := List.map_eq_cons_iff.mp hothers
    exact ⟨first, names, after, rfl, loads, failed⟩

/-- What loading a directory comes to. If there is none, nothing is loaded. Otherwise the schema
files that are reached without following a link are loaded, each once, in the order of their paths.
-/
def LoadsDirectory (registry : Registry) (tree : FileTree) (files : Files) (directory : Path)
    (loading : Loading) : Prop :=
  ((∀ place entries, tree.find directory ≠ .ok (place, .directory entries)) →
    loading = ⟨[], [], registry, some (.schemaLoad directory .notADirectory)⟩) ∧
  ∀ place entries, tree.find directory = .ok (place, .directory entries) →
    ∃ visited skipped, tree.ListsSchemaFiles (place.getD []) entries visited ∧
      listDirectory files directory = .ok (visited.map directory.below, skipped) ∧
      registry.LoadsInOrder files directory visited loading

variable {tree tree' : FileTree} {directory : Path}

theorem loadDirectory_of_listed {found skipped : List Path}
    (listed : listDirectory files directory = .ok (found, skipped)) :
    registry.loadDirectory files directory = { loadFiles files registry found with skipped } := by
  rw [loadDirectory, listed]

theorem loadDirectory_of_nowhere (read : Path → Except FileFault String)
    (nowhere : ∀ place entries, tree.find directory ≠ .ok (place, .directory entries)) :
    registry.loadDirectory ⟨read, tree.files.directory?⟩ directory =
      ⟨[], [], registry, some (.schemaLoad directory .notADirectory)⟩ := by
  have unlisted := FileTree.directory?_of_nowhere nowhere
  rw [loadDirectory, listDirectory, passedLinks, unlisted]
  rfl

theorem loadFiles_eq_of_read (registry : Registry) (read : Path → Except FileFault String)
    (directory? directory?' : Path → Option (Except FileFault (List Entry))) (paths : List Path) :
    loadFiles ⟨read, directory?'⟩ registry paths = loadFiles ⟨read, directory?⟩ registry paths := by
  induction paths generalizing registry with
  | nil => rfl
  | cons path rest ih =>
      have first : registry.loadFile ⟨read, directory?'⟩ path =
          registry.loadFile ⟨read, directory?⟩ path := rfl
      simp only [loadFiles, first, ih]

theorem loadsDirectory (wellFormed : tree.WellFormed) (read : Path → Except FileFault String)
    (registry : Registry) (directory : Path) :
    registry.LoadsDirectory tree ⟨read, tree.files.directory?⟩ directory
      (registry.loadDirectory ⟨read, tree.files.directory?⟩ directory) := by
  refine ⟨loadDirectory_of_nowhere read, fun place entries found => ?_⟩
  have inside := wellFormed.of_find found
  obtain ⟨visited, skipped, lists, listed⟩ := FileTree.exists_listDirectory read inside found
  have loads : registry.LoadsInOrder ⟨read, tree.files.directory?⟩ directory visited _ :=
    loadsInOrder lists.increasing fun names hnames _ _ =>
      ((lists.mem_iff names).mp hnames).isFileFor inside
  rw [loadDirectory_of_listed listed]
  exact ⟨visited, skipped, lists, listed,
    ⟨loads.counted, loads.latest, loads.others, loads.stopped⟩⟩

theorem loadDirectory_eq_of_relisted (relisted : tree.Relisted tree')
    (read : Path → Except FileFault String) (registry : Registry) (directory : Path) :
    ∃ skipped, registry.loadDirectory ⟨read, tree'.files.directory?⟩ directory =
      { registry.loadDirectory ⟨read, tree.files.directory?⟩ directory with skipped } := by
  by_cases found : ∃ place entries, tree.find directory = .ok (place, .directory entries)
  · obtain ⟨place, entries, found⟩ := found
    obtain ⟨entries', found', same⟩ := relisted.find_directory found
    obtain ⟨visited, skipped, lists, listed⟩ :=
      FileTree.exists_listDirectory read same.wellFormed found
    obtain ⟨visited', skipped', lists', listed'⟩ :=
      FileTree.exists_listDirectory read same.symm.wellFormed found'
    have sameVisited : visited' = visited := lists.eq_of_relisted relisted same lists'
    refine ⟨skipped', ?_⟩
    rw [loadDirectory_of_listed listed, loadDirectory_of_listed listed', sameVisited,
      loadFiles_eq_of_read registry read tree.files.directory?]
  · push Not at found
    have nowhere : ∀ place entries, tree'.find directory ≠ .ok (place, .directory entries) := by
      intro place entries found'
      obtain ⟨entries', found'', -⟩ := relisted.symm.find_directory found'
      exact found place entries' found''
    refine ⟨[], ?_⟩
    rw [loadDirectory_of_nowhere read found, loadDirectory_of_nowhere read nowhere]

/-- Directories may list what they hold in any order, and links may lead anywhere: the texts of the
files are the same, and whatever they are, loading a directory comes to the same, but for its report
of the links to directories that it passed over. -/
theorem loadDirectory_of_relisted (relisted : tree.Relisted tree') :
    tree'.files.read = tree.files.read ∧
    ∀ (read : Path → Except FileFault String) (registry : Registry) (directory : Path),
      let files : Files := ⟨read, tree.files.directory?⟩
      let files' : Files := ⟨read, tree'.files.directory?⟩
      let loading := registry.loadDirectory files directory
      (∃ skipped, registry.loadDirectory files' directory = { loading with skipped }) ∧
      registry.LoadsDirectory tree files directory loading :=
  ⟨relisted.read_eq, fun read registry directory =>
    ⟨loadDirectory_eq_of_relisted relisted read registry directory,
      loadsDirectory relisted.wellFormed read registry directory⟩⟩

def loops : FileTree :=
  .directory [("schemas", .directory [("up", .link ".."), ("nowhere.shape.yml", .link "nowhere"),
    ("inner", .directory [("up.shape.yaml", .link ".."),
      ("self.shape.json", .link "self.shape.json")]), ("empty.shape.json", .file .empty)])]

def loopsRelisted : FileTree :=
  .directory [("schemas", .directory [("inner", .directory [
    ("self.shape.json", .link "self.shape.json"), ("up.shape.yaml", .link "..")]),
    ("empty.shape.json", .file .empty), ("nowhere.shape.yml", .link "nowhere"),
    ("up", .link "..")])]

theorem loops_relisted : loops.Relisted loopsRelisted := by
  refine .directory_of_field? (by decide) (by decide) (by decide) ?_
  simp only [List.forall_mem_singleton]
  refine ⟨_, rfl, .directory_of_field? (by decide) (by decide) (by decide) ?_⟩
  simp only [List.forall_mem_cons, List.not_mem_nil, false_imp_iff, implies_true, and_true]
  refine ⟨⟨_, rfl, .link _⟩, ⟨_, rfl, .link _⟩, ⟨_, rfl, ?_⟩, ⟨_, rfl, .file _⟩⟩
  refine .directory_of_field? (by decide) (by decide) (by decide) ?_
  simp only [List.forall_mem_cons, List.not_mem_nil, false_imp_iff, implies_true, and_true]
  exact ⟨⟨_, rfl, .link _⟩, ⟨_, rfl, .link _⟩⟩

def doubled : FileTree :=
  .directory [("schemas", .directory [
    ("b", .directory [("A.shape.json", .file "[0,[[\"value_type\",\"string\"]]]".toUTF8)]),
    ("A.shape.json", .file "[0,[[\"value_type\",\"any\"]]]".toUTF8)])]

def doubledRelisted : FileTree :=
  .directory [("schemas", .directory [
    ("A.shape.json", .file "[0,[[\"value_type\",\"any\"]]]".toUTF8),
    ("b", .directory [("A.shape.json", .file "[0,[[\"value_type\",\"string\"]]]".toUTF8)])])]

theorem doubled_relisted : doubled.Relisted doubledRelisted := by
  refine .directory_of_field? (by decide) (by decide) (by decide) ?_
  simp only [List.forall_mem_singleton]
  refine ⟨_, rfl, .directory_of_field? (by decide) (by decide) (by decide) ?_⟩
  simp only [List.forall_mem_cons, List.not_mem_nil, false_imp_iff, implies_true, and_true]
  refine ⟨⟨_, rfl, .directory_of_field? (by decide) (by decide) (by decide) ?_⟩,
    ⟨_, rfl, .file _⟩⟩
  simp only [List.forall_mem_singleton]
  exact ⟨_, rfl, .file _⟩

theorem exists_find_doubled : ∃ entries, doubled.find ⟨"schemas"⟩ =
      .ok (some ["schemas"], .directory entries) ∧
    ∀ names, doubled.HoldsSchemaFile ["schemas"] entries names ↔
      names = ["b", "A.shape.json"] ∨ names = ["A.shape.json"] := by
  have named : ∃ id, IsSchemaName "A.shape.json" id := ⟨"A", _, List.mem_cons_self, rfl⟩
  refine ⟨_, FileTree.find_eq_ok (by decide) (by rfl) (by nofun), fun names => ?_⟩
  rw [FileTree.HoldsSchemaFile.cons_iff, FileTree.HoldsSchemaFile.directory_iff,
    FileTree.HoldsSchemaFile.file_iff, and_iff_left named]
  simp [FileTree.HoldsSchemaFile.file_iff, named, eq_comm]

theorem spellsSchema_doubled : ∃ id : SchemaId, id.text = "A" ∧
    SpellsSchema doubled.files ⟨"schemas/b/A.shape.json"⟩ id ⟨⟨0⟩, [.valueType .string]⟩ ∧
    SpellsSchema doubled.files ⟨"schemas/A.shape.json"⟩ id ⟨⟨0⟩, [.valueType .any]⟩ := by
  have inner : doubled.find ⟨"schemas/b/A.shape.json"⟩ = .ok (_, _) :=
    FileTree.find_eq_ok (by decide) (by rfl) (by nofun)
  have outer : doubled.find ⟨"schemas/A.shape.json"⟩ = .ok (_, _) :=
    FileTree.find_eq_ok (by decide) (by rfl) (by nofun)
  refine ⟨⟨"A", by decide⟩, rfl, ?_, ?_⟩
  · exact ⟨_, _, _, List.mem_cons_self, by decide, FileTree.read_eq_ok inner,
      by decide +kernel⟩
  · exact ⟨_, _, _, List.mem_cons_self, by decide, FileTree.read_eq_ok outer,
      by decide +kernel⟩

theorem loads_doubled {visited : List (List String)} {loading : Loading}
    (members : ∀ names, names ∈ visited ↔ names = ["b", "A.shape.json"] ∨ names = ["A.shape.json"])
    (distinct : visited.Nodup)
    (loads : registry.LoadsInOrder doubled.files ⟨"schemas"⟩ visited loading) :
    loading.fault = none ∧ loading.loaded.length = 2 ∧
      loading.registry.schema "A" = .ok ⟨⟨0⟩, [.valueType .string]⟩ := by
  obtain ⟨named, hnamed, inner, outer⟩ := spellsSchema_doubled
  have finished : loading.fault = none := by
    refine Option.eq_none_iff_forall_ne_some.mpr fun fault stopped => ?_
    obtain ⟨before, names, after, rfl, -, failed⟩ := loads.stopped fault stopped
    rcases (members names).mp (List.mem_append_right _ List.mem_cons_self) with rfl | rfl
    · obtain ⟨_, compiled⟩ := Schema.exists_validator_of_leaf (.valueType .string) rfl
      exact loadFile_ne_error inner compiled failed
    · obtain ⟨_, compiled⟩ := Schema.exists_validator_of_leaf (.valueType .any) rfl
      exact loadFile_ne_error outer compiled failed
  have file (names : List String) (hnames : names ∈ visited) : IsFileFor "A" names := by
    rcases (members names).mp hnames with rfl | rfl <;>
      exact ⟨_, rfl, _, List.mem_cons_self, rfl⟩
  refine ⟨finished, ?_, ?_⟩
  · have both : visited.Perm [["b", "A.shape.json"], ["A.shape.json"]] :=
      (List.perm_ext_iff_of_nodup distinct (by decide)).mpr fun names => by simp [members]
    rw [loads.counted finished, both.length_eq]
    rfl
  · have last : ["b", "A.shape.json"] ∈ visited := (members _).mpr (.inl rfl)
    obtain ⟨names, ⟨⟨hnames, -⟩, greatest⟩, held⟩ :=
      loads.latest finished "A" ⟨_, last, file _ last⟩
    rcases (members names).mp hnames with rfl | rfl
    · obtain ⟨other, schema, validator, read, -, -, stored, -⟩ := held
      cases read.symm.trans (readSchema_eq_ok_iff.mpr inner)
      exact schema_eq_ok_iff.mpr stored
    · exact absurd (greatest ⟨last, file _ last⟩) (by decide)

theorem loadDirectory_of_relisted_loops :
    (loops.Relisted loopsRelisted ∧
      ∀ registry : Registry, ∃ skipped, registry.loadDirectory loopsRelisted.files ⟨"schemas"⟩ =
        { registry.loadDirectory loops.files ⟨"schemas"⟩ with skipped }) ∧
    doubled.Relisted doubledRelisted ∧
      ∀ registry : Registry,
        let loading := registry.loadDirectory doubled.files ⟨"schemas"⟩
        (∃ skipped, registry.loadDirectory doubledRelisted.files ⟨"schemas"⟩ =
          { loading with skipped }) ∧
        loading.fault = none ∧ loading.loaded.length = 2 ∧
          loading.registry.schema "A" = .ok ⟨⟨0⟩, [.valueType .string]⟩ := by
  refine ⟨⟨loops_relisted, fun registry => ?_⟩, doubled_relisted, fun registry => ⟨?_, ?_⟩⟩
  · rw [loops_relisted.files_eq]
    exact ((loadDirectory_of_relisted loops_relisted).2 loops.files.read registry ⟨"schemas"⟩).1
  · rw [doubled_relisted.files_eq]
    exact ((loadDirectory_of_relisted doubled_relisted).2 doubled.files.read registry
      ⟨"schemas"⟩).1
  · obtain ⟨entries, found, members⟩ := exists_find_doubled
    have loads := (loadDirectory_of_relisted doubled_relisted).2 doubled.files.read registry
      ⟨"schemas"⟩
    obtain ⟨visited, -, lists, -, inOrder⟩ := loads.2.2 _ entries found
    exact loads_doubled (fun names => (lists.mem_iff names).trans (members names))
      (lists.increasing.imp ne_of_lt) inOrder

end Registry

end Conform
