import Conform.Proofs.Files.Path
import Conform.Proofs.Files.Relisting
import Conform.Proofs.Outcome
import Conform.Registry.Loading
import Mathlib.Data.List.Infix

namespace Conform

def IsSchemaName (name id : String) : Prop := ∃ entry ∈ schemaSuffixes, name = id ++ entry.1

namespace IsSchemaName

variable {name id other : String}

theorem suffix_incomparable : ∀ entry ∈ schemaSuffixes, ∀ other ∈ schemaSuffixes,
    entry.1.toList <:+ other.1.toList → entry = other := by
  decide

theorem append_cancel {entry entry' : String × Format} (hentry : entry ∈ schemaSuffixes)
    (hentry' : entry' ∈ schemaSuffixes) (same : id ++ entry.1 = other ++ entry'.1) :
    id = other ∧ entry = entry' := by
  have chars : id.toList ++ entry.1.toList = other.toList ++ entry'.1.toList := by
    simpa using congrArg String.toList same
  have suffixes : entry = entry' := by
    rcases List.suffix_or_suffix_of_suffix (List.suffix_append _ _)
      (chars ▸ List.suffix_append _ _) with shorter | longer
    · exact (suffix_incomparable _ hentry' _ hentry shorter).symm
    · exact suffix_incomparable _ hentry _ hentry' longer
  rw [suffixes] at chars
  exact ⟨String.ext (List.append_cancel_right chars), suffixes⟩

theorem unique (named : IsSchemaName name id) (named' : IsSchemaName name other) : id = other := by
  obtain ⟨entry, hentry, rfl⟩ := named
  obtain ⟨entry', hentry', same⟩ := named'
  exact (append_cancel hentry hentry' same).1

theorem splitSchemaName?_eq_some_iff {format : Format} :
    splitSchemaName? name = some (id, format) ↔
      ∃ suffix, (suffix, format) ∈ schemaSuffixes ∧ name = id ++ suffix := by
  have sound (id : String) (format : Format) (split : splitSchemaName? name = some (id, format)) :
      ∃ suffix, (suffix, format) ∈ schemaSuffixes ∧ name = id ++ suffix := by
    obtain ⟨⟨suffix, format'⟩, hentry, stem⟩ := List.exists_of_findSome?_eq_some split
    obtain ⟨hsuffix, hstem⟩ := Option.ite_none_right_eq_some.mp stem
    obtain ⟨rest, hrest⟩ := List.isSuffixOf_iff_suffix.mp hsuffix
    have length : name.length - suffix.length = rest.length := by
      rw [← String.length_toList, ← String.length_toList, ← hrest, List.length_append,
        Nat.add_sub_cancel]
    rw [← hrest, length, List.take_left, Option.some.injEq, Prod.mk.injEq] at hstem
    obtain ⟨rfl, rfl⟩ := hstem
    refine ⟨suffix, hentry, ?_⟩
    rw [← String.toList_inj, String.toList_append, String.toList_ofList, hrest]
  refine ⟨sound id format, ?_⟩
  rintro ⟨suffix, hentry, hname⟩
  have splits : (splitSchemaName? name).isSome :=
    List.findSome?_isSome_iff.mpr ⟨_, hentry, by simp [hname]⟩
  obtain ⟨⟨stem, format'⟩, split⟩ := Option.isSome_iff_exists.mp splits
  obtain ⟨suffix', hentry', hname'⟩ := sound stem format' split
  obtain ⟨rfl, same⟩ := append_cancel hentry hentry' (hname.symm.trans hname')
  cases same
  exact split

theorem exists_iff : (∃ id, IsSchemaName name id) ↔ (splitSchemaName? name).isSome := by
  constructor
  · rintro ⟨id, ⟨suffix, format⟩, hentry, hname⟩
    exact Option.isSome_of_eq_some (splitSchemaName?_eq_some_iff.mpr ⟨suffix, hentry, hname⟩)
  · intro h
    obtain ⟨⟨id, format⟩, split⟩ := Option.isSome_iff_exists.mp h
    obtain ⟨suffix, hentry, hname⟩ := splitSchemaName?_eq_some_iff.mp split
    exact ⟨id, _, hentry, hname⟩

theorem name?_join (named : IsSchemaName name id) (path : Path)
    (noSlash : '/' ∉ name.toList) : (path.join ⟨name⟩).name? = some name := by
  have long : 2 < name.length := by
    obtain ⟨entry, hentry, rfl⟩ := named
    have suffixes : ∀ entry ∈ schemaSuffixes, 2 < entry.1.length := by decide
    rw [String.length_append]
    exact (suffixes entry hentry).trans_le (Nat.le_add_left _ _)
  refine Path.name?_join path noSlash ?_ ?_
  · rw [Path.isVoid, Bool.or_eq_false_iff, beq_eq_false_iff_ne, beq_eq_false_iff_ne]
    exact ⟨fun h => absurd (h ▸ long) (by decide), fun h => absurd (h ▸ long) (by decide)⟩
  · exact fun h => absurd (h ▸ long) (by decide)

end IsSchemaName

def IsFileFor (id : String) (names : List String) : Prop :=
  ∃ name ∈ names.getLast?, IsSchemaName name id

theorem isFileFor_append_singleton {before : List String} {name id : String} :
    IsFileFor id (before ++ [name]) ↔ IsSchemaName name id := by
  simp [IsFileFor]

theorem IsFileFor.unique {id other : String} {names : List String} (file : IsFileFor id names)
    (file' : IsFileFor other names) : id = other := by
  obtain ⟨name, last, named⟩ := file
  obtain ⟨name', last', named'⟩ := file'
  cases last.symm.trans last'
  exact named.unique named'

theorem SchemaId.mapError_ofText_eq_ok_iff {text : String} {id : SchemaId}
    {f : SchemaFault → RegistryFault} : (ofText text).mapError f = .ok id ↔ id.text = text := by
  rw [ofText]
  split
  · rename_i valid
    constructor
    · rintro ⟨rfl⟩
      rfl
    · rintro rfl
      rfl
  · rename_i reason invalid
    refine iff_of_false (fun h => by cases h) ?_
    rintro rfl
    cases id.valid.symm.trans invalid

/-- The file is named for the id, and its text spells the schema in the format that the rest of its
name tells. -/
def SpellsSchema (files : Files) (path : Path) (id : SchemaId) (schema : Schema) : Prop :=
  ∃ suffix format text, (suffix, format) ∈ schemaSuffixes ∧
    path.name? = some (id.text ++ suffix) ∧ files.read path = .ok text ∧
    Schema.ofText? format text = some schema

theorem readSchema_eq_ok_iff {files : Files} {path : Path} {id : SchemaId} {schema : Schema} :
    readSchema files path = .ok (id, schema) ↔ SpellsSchema files path id schema := by
  rw [readSchema]
  constructor
  · intro read
    cases hname : path.name? with
    | none =>
        rw [hname] at read
        cases read
    | some name =>
        rw [hname] at read
        dsimp only at read
        cases hsplit : splitSchemaName? name with
        | none =>
            rw [hsplit] at read
            cases read
        | some split =>
            obtain ⟨stem, format⟩ := split
            rw [hsplit] at read
            obtain ⟨id', hid, read⟩ := exists_of_bind_eq_ok read
            obtain ⟨text, htext, read⟩ := exists_of_bind_eq_ok read
            cases hschema : Schema.ofText? format text with
            | none =>
                rw [hschema] at read
                cases read
            | some schema' =>
                rw [hschema] at read
                cases read
                obtain rfl := SchemaId.mapError_ofText_eq_ok_iff.mp hid
                obtain ⟨suffix, hentry, rfl⟩ :=
                  IsSchemaName.splitSchemaName?_eq_some_iff.mp hsplit
                exact ⟨suffix, format, text, hentry, hname, mapError_eq_ok_iff.mp htext, hschema⟩
  · rintro ⟨suffix, format, text, hentry, hname, htext, hschema⟩
    rw [hname]
    dsimp only
    rw [IsSchemaName.splitSchemaName?_eq_some_iff.mpr ⟨suffix, hentry, rfl⟩]
    refine bind_eq_ok (SchemaId.mapError_ofText_eq_ok_iff.mpr rfl) ?_
    refine bind_eq_ok (mapError_eq_ok_iff.mpr htext) ?_
    rw [hschema]
    rfl

theorem readSchema_isSchemaName {files : Files} {path : Path} {name : String} {id : SchemaId}
    {schema : Schema} (hname : path.name? = some name)
    (read : readSchema files path = .ok (id, schema)) : IsSchemaName name id.text := by
  obtain ⟨suffix, format, text, hentry, hname', -⟩ := readSchema_eq_ok_iff.mp read
  cases hname.symm.trans hname'
  exact ⟨_, hentry, rfl⟩

namespace FileTree

variable {tree tree' : FileTree} {around names : List String} {name : String}
  {entries entries' rest : List (String × FileTree)}

def LinksToDirectory (tree : FileTree) (around : List String) (name : String) : Prop :=
  ∃ place entries,
    tree.follow linkLimit (some around) [name] = .ok (place, some (.directory entries))

/-- From a directory at the place `around` that holds `entries` the names lead down to a schema
file, which may be a link to anything but a directory. There is no other link on the way. -/
inductive HoldsSchemaFile (tree : FileTree) :
    List String → List (String × FileTree) → List String → Prop
  | file {around : List String} {entries : List (String × FileTree)} {name id : String}
      {content : ByteArray} (entry : (name, .file content) ∈ entries)
      (named : IsSchemaName name id) : HoldsSchemaFile tree around entries [name]
  | link {around : List String} {entries : List (String × FileTree)} {name id target : String}
      (entry : (name, .link target) ∈ entries) (noDirectory : ¬ tree.LinksToDirectory around name)
      (named : IsSchemaName name id) : HoldsSchemaFile tree around entries [name]
  | inside {around names : List String} {entries inner : List (String × FileTree)} {name : String}
      (entry : (name, .directory inner) ∈ entries)
      (found : HoldsSchemaFile tree (name :: around) inner names) :
      HoldsSchemaFile tree around entries (name :: names)

namespace HoldsSchemaFile

theorem mono (found : tree.HoldsSchemaFile around entries names) (subset : entries ⊆ entries') :
    tree.HoldsSchemaFile around entries' names := by
  cases found with
  | file entry named => exact .file (subset entry) named
  | link entry noDirectory named => exact .link (subset entry) noDirectory named
  | inside entry found => exact .inside (subset entry) found

theorem exists_head (found : tree.HoldsSchemaFile around entries names) :
    ∃ name ∈ entries.map (·.1), names.head? = some name := by
  cases found with
  | file entry _ => exact ⟨_, List.mem_map_of_mem entry, rfl⟩
  | link entry _ _ => exact ⟨_, List.mem_map_of_mem entry, rfl⟩
  | inside entry _ => exact ⟨_, List.mem_map_of_mem entry, rfl⟩

theorem exists_last (found : tree.HoldsSchemaFile around entries names)
    (wellFormed : (directory entries).WellFormed) :
    ∃ before name id, names = before ++ [name] ∧ '/' ∉ name.toList ∧ IsSchemaName name id := by
  induction found with
  | file entry named =>
      cases wellFormed with
      | directory _ noSlash _ =>
          exact ⟨[], _, _, rfl, noSlash _ (List.mem_map_of_mem entry), named⟩
  | link entry _ named =>
      cases wellFormed with
      | directory _ noSlash _ =>
          exact ⟨[], _, _, rfl, noSlash _ (List.mem_map_of_mem entry), named⟩
  | inside entry _ ih =>
      cases wellFormed with
      | directory _ _ each =>
          obtain ⟨before, last, id, rfl, hlast⟩ := ih (each _ _ entry)
          exact ⟨_ :: before, last, id, rfl, hlast⟩

theorem file_iff {content : ByteArray} :
    tree.HoldsSchemaFile around [(name, .file content)] names ↔
      names = [name] ∧ ∃ id, IsSchemaName name id := by
  constructor
  · intro found
    cases found with
    | file entry named =>
        cases List.mem_singleton.mp entry
        exact ⟨rfl, _, named⟩
    | link entry _ _ => cases List.mem_singleton.mp entry
    | inside entry _ => cases List.mem_singleton.mp entry
  · rintro ⟨rfl, id, named⟩
    exact .file List.mem_cons_self named

theorem link_iff {target : String} :
    tree.HoldsSchemaFile around [(name, .link target)] names ↔
      ¬ tree.LinksToDirectory around name ∧ names = [name] ∧ ∃ id, IsSchemaName name id := by
  constructor
  · intro found
    cases found with
    | file entry _ => cases List.mem_singleton.mp entry
    | link entry noDirectory named =>
        cases List.mem_singleton.mp entry
        exact ⟨noDirectory, rfl, _, named⟩
    | inside entry _ => cases List.mem_singleton.mp entry
  · rintro ⟨noDirectory, rfl, id, named⟩
    exact .link List.mem_cons_self noDirectory named

theorem directory_iff {inner : List (String × FileTree)} :
    tree.HoldsSchemaFile around [(name, .directory inner)] names ↔
      ∃ below, tree.HoldsSchemaFile (name :: around) inner below ∧ name :: below = names := by
  constructor
  · intro found
    cases found with
    | file entry _ => cases List.mem_singleton.mp entry
    | link entry _ _ => cases List.mem_singleton.mp entry
    | inside entry found =>
        cases List.mem_singleton.mp entry
        exact ⟨_, found, rfl⟩
  · rintro ⟨below, found, rfl⟩
    exact .inside List.mem_cons_self found

theorem cons_iff {entry : String × FileTree} :
    tree.HoldsSchemaFile around (entry :: rest) names ↔
      tree.HoldsSchemaFile around [entry] names ∨ tree.HoldsSchemaFile around rest names := by
  constructor
  · intro found
    cases found with
    | file hentry named =>
        exact (List.mem_cons.mp hentry).imp (fun h => .file (List.mem_singleton.mpr h) named)
          fun h => .file h named
    | link hentry noDirectory named =>
        exact (List.mem_cons.mp hentry).imp
          (fun h => .link (List.mem_singleton.mpr h) noDirectory named)
          fun h => .link h noDirectory named
    | inside hentry found =>
        exact (List.mem_cons.mp hentry).imp (fun h => .inside (List.mem_singleton.mpr h) found)
          fun h => .inside h found
  · rintro (found | found)
    · exact found.mono (List.cons_subset_cons _ (List.nil_subset _))
    · exact found.mono (List.subset_cons_self _ _)

end HoldsSchemaFile

/-- What is found in a directory are the schema files below it, each of them once. -/
def Finds (tree : FileTree) (around : List String) (entries : List (String × FileTree))
    (outcome : Except RegistryFault (List (List String))) : Prop :=
  ∃ found, outcome = .ok found ∧ found.Nodup ∧
    ∀ names, names ∈ found ↔ tree.HoldsSchemaFile around entries names

namespace Finds

theorem single (only : ∀ names, tree.HoldsSchemaFile around entries names ↔
      names = [name] ∧ ∃ id, IsSchemaName name id) :
    tree.Finds around entries (.ok (if (splitSchemaName? name).isSome then [[name]] else [])) := by
  refine ⟨_, rfl, ?_, fun names => ?_⟩
  · split_ifs
    · exact List.nodup_singleton _
    · exact List.nodup_nil
  · rw [only, IsSchemaName.exists_iff]
    split_ifs with h <;> simp [h]

theorem map {inner : List (String × FileTree)} {outcome : Except RegistryFault (List (List String))}
    (finds : tree.Finds (name :: around) inner outcome) :
    tree.Finds around [(name, .directory inner)]
      (outcome.map fun found => found.map (name :: ·)) := by
  obtain ⟨found, rfl, distinct, members⟩ := finds
  refine ⟨_, rfl, distinct.map fun a b h => List.tail_eq_of_cons_eq h, fun names => ?_⟩
  simp only [List.mem_map, members, HoldsSchemaFile.directory_iff]

theorem cons {entry : String × FileTree} {first others : Except RegistryFault (List (List String))}
    (finds : tree.Finds around [entry] first) (finds' : tree.Finds around rest others)
    (new : entry.1 ∉ rest.map (·.1)) :
    tree.Finds around (entry :: rest) (do return (← first) ++ (← others)) := by
  obtain ⟨found, rfl, distinct, members⟩ := finds
  obtain ⟨found', rfl, distinct', members'⟩ := finds'
  refine ⟨found ++ found', rfl, distinct.append distinct' ?_, fun names => ?_⟩
  · intro names hnames hnames'
    -- Names that lead on from different entries begin differently.
    obtain ⟨name, hname, head⟩ := ((members names).mp hnames).exists_head
    obtain ⟨name', hname', head'⟩ := ((members' names).mp hnames').exists_head
    cases head.symm.trans head'
    rw [List.map_singleton, List.mem_singleton] at hname
    exact new (hname ▸ hname')
  · rw [List.mem_append, members, members', ← HoldsSchemaFile.cons_iff]

end Finds

theorem finds_schemaFiles (tree : FileTree) (around : List String)
    (entries : List (String × FileTree)) : ∀ path, (directory entries).WellFormed →
      tree.Finds around entries (schemaFiles path (tree.entriesOf around entries)) := by
  -- The recursion goes down the tree only: where a link leads is looked up, and not entered.
  refine FileTree.entriesOf.induct tree
    (fun around name node => ∀ path, node.WellFormed →
      tree.Finds around [(name, node)] (schemaFilesOf path (tree.entryOf around name node)))
    (fun around entries => ∀ path, (directory entries).WellFormed →
      tree.Finds around entries (schemaFiles path (tree.entriesOf around entries)))
    ?file ?directoryLink ?otherLink ?directory ?nil ?cons around entries
  case file =>
    intro around name content path _
    exact Finds.single fun names => HoldsSchemaFile.file_iff
  case directoryLink =>
    intro around name target place inner followed path _
    rw [entryOf, followed]
    refine ⟨[], rfl, List.nodup_nil, fun names => iff_of_false List.not_mem_nil fun found => ?_⟩
    exact (HoldsSchemaFile.link_iff.mp found).1 ⟨place, inner, followed⟩
  case otherLink =>
    intro around name target followed path _
    have noDirectory : ¬ tree.LinksToDirectory around name :=
      fun ⟨place, inner, h⟩ => followed place inner h
    have asFile : tree.entryOf around name (.link target) = .file name := by
      rw [entryOf]
      split
      · rename_i h
        exact (followed _ _ h).elim
      · rfl
    rw [asFile]
    refine Finds.single fun names => ?_
    rw [HoldsSchemaFile.link_iff, and_iff_right noDirectory]
  case directory =>
    intro around name inner ih path wellFormed
    rw [entryOf, schemaFilesOf]
    exact (ih _ wellFormed).map
  case nil =>
    intro around path _
    refine ⟨[], rfl, List.nodup_nil, fun names => iff_of_false List.not_mem_nil fun found => ?_⟩
    obtain ⟨name, hname, -⟩ := found.exists_head
    cases hname
  case cons =>
    intro around name node rest first others path wellFormed
    cases wellFormed with
    | directory distinct noSlash each =>
        rw [List.map_cons, List.nodup_cons] at distinct
        rw [List.map_cons, List.forall_mem_cons] at noSlash
        exact (first path (each _ _ List.mem_cons_self)).cons
          (others path (.directory distinct.2 noSlash.2
            fun name node h => each name node (List.mem_cons_of_mem _ h))) distinct.1

theorem LinksToDirectory.relist (relisted : tree.Relisted tree')
    (links : tree.LinksToDirectory around name) : tree'.LinksToDirectory around name := by
  obtain ⟨place, entries, followed⟩ := links
  have alike := relisted.follow linkLimit (some around) [name]
  rw [followed] at alike
  rw [LinksToDirectory]
  generalize tree'.follow linkLimit (some around) [name] = outcome at alike ⊢
  cases alike with
  | ok _ same =>
      cases same with
      | some related =>
          cases related with
          | directory => exact ⟨_, _, rfl⟩

theorem HoldsSchemaFile.relist (relisted : tree.Relisted tree')
    (found : tree.HoldsSchemaFile around entries names)
    (same : (directory entries).Relisted (directory entries')) :
    tree'.HoldsSchemaFile around entries' names := by
  induction found generalizing entries' with
  | file entry named =>
      obtain ⟨node, hnode, related⟩ := same.exists_entry entry
      cases related
      exact .file hnode named
  | link entry noDirectory named =>
      obtain ⟨node, hnode, related⟩ := same.exists_entry entry
      cases related
      exact .link hnode (fun links => noDirectory (links.relist relisted.symm)) named
  | inside entry _ ih =>
      obtain ⟨node, hnode, related⟩ := same.exists_entry entry
      cases related with
      | directory distinct noSlash names each =>
          exact .inside hnode (ih (.directory distinct noSlash names each))

end FileTree
end Conform
