import Conform.Proofs.Registry.SchemaFiles
import Mathlib.Data.String.Basic

/-!
What a registry is after any calls, of which some may fail: what was registered last under an id,
and the validator of that. A call that fails keeps what it had registered before, and nothing else.
-/

namespace Conform

theorem SchemaId.eq_of_text {id other : SchemaId} (h : id.text = other.text) : id = other := by
  cases id
  cases other
  congr

theorem SchemaId.wellFormed (id : SchemaId) :
    id.text ≠ "" ∧ ∀ c ∈ id.text.toList, ¬ Text.isBlank c ∧ c ≠ '/' ∧ c ≠ '\\' := by
  have valid := id.valid
  rw [idDefect?] at valid
  split at valid
  · cases valid
  · rename_i nonempty
    split at valid
    · cases valid
    · rename_i blank
      split at valid
      · cases valid
      · rename_i separator
        simp_all

namespace IdMap

variable {α : Type} {map : IdMap α} {id : SchemaId}

theorem get?_insert (map : IdMap α) (id : SchemaId) (a : α) (other : String) :
    (map.insert id a).get? other = if id.text = other then some a else map.get? other := by
  obtain ⟨entries, distinct⟩ := map
  simp only [get?, insert]
  clear distinct
  induction entries with
  | nil =>
      by_cases h : id.text = other <;> simp [setEntry, h]
  | cons entry rest ih =>
      rw [setEntry]
      split
      · rename_i hid
        subst hid
        by_cases h : entry.1.text = other <;> simp [h]
      · rename_i hid
        by_cases hentry : entry.1.text = other
        · have different : id.text ≠ other :=
            fun h => hid (SchemaId.eq_of_text (hentry.trans h.symm))
          simp [hentry, different]
        · simpa [hentry] using ih

theorem isSome_get?_of_mem (h : id ∈ map.entries.map (·.1)) : (map.get? id.text).isSome := by
  obtain ⟨entry, hentry, rfl⟩ := List.mem_map.mp h
  rw [get?, Option.isSome_map, List.find?_isSome]
  exact ⟨entry, hentry, by simp⟩

end IdMap

theorem pairwise_inOrder (names : List (List String)) :
    (inOrder names).Pairwise fun a b => ¬ b < a := by
  have transitive : ∀ a b c : List String, (!decide (b < a)) = true → (!decide (c < b)) = true →
      (!decide (c < a)) = true := by
    simp only [Bool.not_eq_true', decide_eq_false_iff_not]
    exact fun a b c hab hbc => IsOrderConnected.neg_trans hbc hab
  have total : ∀ a b : List String, (!decide (b < a) || !decide (a < b)) = true := by
    simp only [Bool.or_eq_true, Bool.not_eq_true', decide_eq_false_iff_not]
    exact fun a b => not_and_or.mp fun h => List.lt_asymm h.1 h.2
  refine (List.pairwise_mergeSort transitive total names).imp fun h => ?_
  simpa using h

namespace Registry

/-- What registering a schema adds to what was registered: nothing, if it does not compile. -/
def registeredAs (id : SchemaId) (schema : Schema) : List (SchemaId × Schema) :=
  match schema.compile with
  | .ok _ => [(id, schema)]
  | .error _ => []

/-- What loading files one after the other adds: the schemas in the files before the first that
holds none or holds one that does not compile. -/
def registeredFrom (files : Files) : List Path → List (SchemaId × Schema)
  | [] => []
  | path :: rest =>
    match readSchema files path with
    | .error _ => []
    | .ok (id, schema) =>
      match schema.compile with
      | .ok _ => (id, schema) :: registeredFrom files rest
      | .error _ => []

def registeredBelow (files : Files) (directory : Path) : List (SchemaId × Schema) :=
  match listDirectory files directory with
  | .ok (found, _) => registeredFrom files found
  | .error _ => []

variable {registry : Registry} {registered : List (SchemaId × Schema)}

theorem pairwise_ids (registry : Registry) : (registry.ids.map (·.text)).Pairwise (· < ·) := by
  have transitive : ∀ a b c : SchemaId, decide (a.text ≤ b.text) = true →
      decide (b.text ≤ c.text) = true → decide (a.text ≤ c.text) = true := by
    simp only [decide_eq_true_eq]
    exact fun a b c => le_trans
  have total : ∀ a b : SchemaId,
      (decide (a.text ≤ b.text) || decide (b.text ≤ a.text)) = true := by
    simp only [Bool.or_eq_true, decide_eq_true_eq]
    exact fun a b => le_total _ _
  have sorted : registry.ids.Pairwise fun a b => a.text ≤ b.text :=
    (List.pairwise_mergeSort transitive total _).imp of_decide_eq_true
  have distinct : registry.ids.Nodup :=
    (List.mergeSort_perm _ _).nodup_iff.mpr registry.schemas.distinct
  rw [List.pairwise_map]
  refine (sorted.and distinct).imp fun h => ?_
  exact lt_of_le_of_ne h.1 fun same => h.2 (SchemaId.eq_of_text same)

theorem length_ids (registry : Registry) : registry.ids.length = registry.size := by
  rw [ids, List.length_mergeSort, List.length_map]
  rfl

def latest? (registered : List (SchemaId × Schema)) (id : String) : Option Schema :=
  (registered.reverse.find? (·.1.text == id)).map (·.2)

theorem latest?_append_singleton (registered : List (SchemaId × Schema)) (id : SchemaId)
    (schema : Schema) (other : String) :
    latest? (registered ++ [(id, schema)]) other =
      if id.text = other then some schema else latest? registered other := by
  rw [latest?, latest?, List.reverse_append]
  by_cases h : id.text = other <;> simp [h]

theorem latest?_eq_none_iff {id : String} :
    latest? registered id = none ↔ ∀ entry ∈ registered, entry.1.text ≠ id := by
  simp [latest?]

theorem latest?_of_append {before after : List (SchemaId × Schema)} {id : SchemaId}
    {schema : Schema} (last : ∀ entry ∈ after, entry.1 ≠ id) :
    latest? (before ++ (id, schema) :: after) id.text = some schema := by
  have noneLater : after.reverse.find? (·.1.text == id.text) = none := by
    rw [List.find?_eq_none]
    intro entry hentry same
    exact last entry (List.mem_reverse.mp hentry) (SchemaId.eq_of_text (beq_iff_eq.mp same))
  rw [latest?, List.reverse_append, List.reverse_cons, List.append_assoc, List.find?_append,
    noneLater]
  simp

/-- Every id has what was registered last under it, and the validator of that. -/
structure Reflects (registry : Registry) (registered : List (SchemaId × Schema)) : Prop where
  schemas : ∀ id, registry.schemas.get? id = latest? registered id
  validators : ∀ id, registry.validators.get? id =
    (latest? registered id).bind fun schema => schema.compile.toOption
  compiled : ∀ entry ∈ registered, ∃ validator, entry.2.compile = .ok validator

theorem reflects_empty : empty.Reflects [] where
  schemas := fun _ => rfl
  validators := fun _ => rfl
  compiled := by simp

variable {files : Files} {path : Path} {id : SchemaId} {schema : Schema}

theorem register_of_compile_error {fault : BuildFault} (failed : schema.compile = .error fault) :
    registry.register id schema = (.error (.build id fault), registry) := by
  rw [register, failed]

theorem register_of_compile_ok {validator : Validator} (compiled : schema.compile = .ok validator) :
    registry.register id schema =
      (.ok ⟨validator, (registry.schemas.get? id.text).isSome⟩,
        ⟨registry.schemas.insert id schema, registry.validators.insert id validator⟩) := by
  rw [register, compiled]

theorem map_register (registry : Registry) (id : SchemaId) (schema : Schema) :
    (registry.register id schema).1.map (·.validator) = schema.compile.mapError (.build id) := by
  cases hcompile : schema.compile with
  | error fault =>
      rw [register_of_compile_error hcompile]
      rfl
  | ok validator =>
      rw [register_of_compile_ok hcompile]
      rfl

theorem register_of_error {fault : RegistryFault}
    (failed : (registry.register id schema).1 = .error fault) :
    (registry.register id schema).2 = registry := by
  cases hcompile : schema.compile with
  | error fault => rw [register_of_compile_error hcompile]
  | ok validator =>
      rw [register_of_compile_ok hcompile] at failed
      cases failed

theorem Reflects.register (h : registry.Reflects registered) (id : SchemaId) (schema : Schema) :
    (registry.register id schema).2.Reflects (registered ++ registeredAs id schema) := by
  rw [registeredAs]
  cases hcompile : schema.compile with
  | error fault =>
      rw [register_of_compile_error hcompile]
      simpa using h
  | ok validator =>
      rw [register_of_compile_ok hcompile]
      constructor
      · intro other
        rw [IdMap.get?_insert, h.schemas, latest?_append_singleton]
      · intro other
        rw [IdMap.get?_insert, h.validators, latest?_append_singleton]
        split
        · rw [Option.bind_some, hcompile]
          rfl
        · rfl
      · rw [List.forall_mem_append, List.forall_mem_singleton]
        exact ⟨h.compiled, validator, hcompile⟩

theorem loadFile_of_readSchema_error {fault : RegistryFault}
    (unread : readSchema files path = .error fault) :
    registry.loadFile files path = (.error fault, registry) := by
  rw [loadFile, unread]

theorem loadFile_of_readSchema_ok (read : readSchema files path = .ok (id, schema)) :
    registry.loadFile files path =
      ((registry.register id schema).1.map (id, ·), (registry.register id schema).2) := by
  rw [loadFile, read]

theorem loadFile_of_error {fault : RegistryFault}
    (failed : (registry.loadFile files path).1 = .error fault) :
    (registry.loadFile files path).2 = registry := by
  cases hread : readSchema files path with
  | error fault => rw [loadFile_of_readSchema_error hread]
  | ok entry =>
      obtain ⟨id, schema⟩ := entry
      rw [loadFile_of_readSchema_ok hread] at failed ⊢
      cases hregister : (registry.register id schema).1 with
      | error fault => exact register_of_error hregister
      | ok registration =>
          rw [hregister] at failed
          cases failed

theorem map_loadFile (registry : Registry) (files : Files) (path : Path) :
    (registry.loadFile files path).1.map (fun entry => (entry.1, entry.2.validator)) =
      readSchema files path >>= fun entry =>
        (entry.2.compile.mapError (.build entry.1)).map (entry.1, ·) := by
  cases hread : readSchema files path with
  | error fault =>
      rw [loadFile_of_readSchema_error hread]
      rfl
  | ok entry =>
      rw [loadFile_of_readSchema_ok hread]
      change _ = (entry.2.compile.mapError (RegistryFault.build entry.1)).map (entry.1, ·)
      rw [← map_register registry]
      cases (registry.register entry.1 entry.2).1 <;> rfl

theorem Reflects.loadFiles (h : registry.Reflects registered) (files : Files)
    (paths : List Path) :
    (loadFiles files registry paths).registry.Reflects
      (registered ++ registeredFrom files paths) := by
  induction paths generalizing registry registered with
  | nil => simpa [Registry.loadFiles, registeredFrom] using h
  | cons path rest ih =>
      rw [Registry.loadFiles, registeredFrom]
      cases hread : readSchema files path with
      | error fault =>
          rw [loadFile_of_readSchema_error hread]
          simpa using h
      | ok entry =>
          obtain ⟨id, schema⟩ := entry
          have first := h.register id schema
          rw [loadFile_of_readSchema_ok hread]
          dsimp only
          rw [registeredAs] at first
          cases hcompile : schema.compile with
          | error fault =>
              rw [register_of_compile_error hcompile, List.append_nil]
              exact h
          | ok validator =>
              rw [hcompile] at first
              have all := ih first
              rw [List.append_assoc, register_of_compile_ok hcompile] at all
              rw [register_of_compile_ok hcompile]
              exact all

theorem Reflects.loadFile (h : registry.Reflects registered) (files : Files) (path : Path) :
    (registry.loadFile files path).2.Reflects (registered ++ registeredFrom files [path]) := by
  have alone := h.loadFiles files [path]
  rw [Registry.loadFiles] at alone
  cases hload : registry.loadFile files path with
  | mk answer after =>
      rw [hload] at alone
      cases answer with
      | error fault => exact alone
      | ok entry => exact alone

theorem Reflects.loadDirectory (h : registry.Reflects registered) (files : Files)
    (directory : Path) :
    (registry.loadDirectory files directory).registry.Reflects
      (registered ++ registeredBelow files directory) := by
  rw [Registry.loadDirectory, registeredBelow]
  cases listDirectory files directory with
  | error fault => simpa using h
  | ok listed => exact h.loadFiles files listed.1

inductive LoadsAll (files : Files) : Registry → List Path → Registry → Prop
  | nil (registry : Registry) : LoadsAll files registry [] registry
  | cons {registry next after : Registry} {path : Path} {rest : List Path}
      {entry : SchemaId × Registration} (first : registry.loadFile files path = (.ok entry, next))
      (others : LoadsAll files next rest after) : LoadsAll files registry (path :: rest) after

theorem exists_of_loadFiles_fault {paths : List Path} {fault : RegistryFault}
    (stopped : (loadFiles files registry paths).fault = some fault) :
    ∃ before path rest, paths = before ++ path :: rest ∧
      LoadsAll files registry before (loadFiles files registry paths).registry ∧
      ((loadFiles files registry paths).registry.loadFile files path).1 = .error fault := by
  induction paths generalizing registry with
  | nil => cases stopped
  | cons path rest ih =>
      have unchanged := @loadFile_of_error registry files path
      rw [loadFiles] at stopped ⊢
      cases hload : registry.loadFile files path with
      | mk answer next =>
          rw [hload] at stopped unchanged
          cases answer with
          | error reason =>
              -- The file that fails changes nothing, so it fails again in the registry at the end.
              obtain rfl : reason = fault := Option.some.inj stopped
              obtain rfl : next = registry := unchanged rfl
              exact ⟨[], path, rest, rfl, .nil _, congrArg Prod.fst hload⟩
          | ok entry =>
              obtain ⟨before, failing, others, hrest, loads, failed⟩ := ih stopped
              exact ⟨path :: before, failing, others, congrArg (path :: ·) hrest,
                .cons hload loads, failed⟩

theorem listDirectory_eq_ok {directory : Path} {entries : List Entry} {names : List (List String)}
    (listing : files.directory? directory = some (.ok entries))
    (found : schemaFiles directory entries = .ok names) :
    listDirectory files directory =
      .ok ((inOrder names).map directory.below, linksBelow directory entries) := by
  rw [listDirectory, listing]
  change schemaFiles directory entries >>= _ = _
  rw [found]
  rfl

theorem exists_sorted_of_listDirectory {directory : Path} {found skipped : List Path}
    (listed : listDirectory files directory = .ok (found, skipped)) :
    ∃ names : List (List String), found = names.map directory.below ∧
      names.Pairwise fun a b => ¬ b < a := by
  rw [listDirectory] at listed
  cases hdirectory : files.directory? directory with
  | none =>
      rw [hdirectory] at listed
      cases listed
  | some listing =>
      rw [hdirectory] at listed
      cases listing with
      | error fault => cases listed
      | ok entries =>
          change schemaFiles directory entries >>= _ = _ at listed
          cases hfiles : schemaFiles directory entries with
          | error fault =>
              rw [hfiles] at listed
              cases listed
          | ok names =>
              rw [hfiles] at listed
              cases listed
              exact ⟨_, rfl, pairwise_inOrder names⟩

/-- A call that may change a registry. Each sees files of its own. -/
inductive Operation where
  | register (id : SchemaId) (schema : Schema)
  | loadFile (files : Files) (path : Path)
  | loadDirectory (files : Files) (directory : Path)

/-- What a call adds to what was registered, told by its arguments alone. -/
def Operation.registers : Operation → List (SchemaId × Schema)
  | .register id schema => registeredAs id schema
  | .loadFile files path => registeredFrom files [path]
  | .loadDirectory files directory => registeredBelow files directory

def perform (registry : Registry) : Operation → Registry
  | .register id schema => (registry.register id schema).2
  | .loadFile files path => (registry.loadFile files path).2
  | .loadDirectory files directory => (registry.loadDirectory files directory).registry

def run (operations : List Operation) : Registry := operations.foldl perform empty

theorem Reflects.perform (h : registry.Reflects registered) (operation : Operation) :
    (registry.perform operation).Reflects (registered ++ operation.registers) := by
  cases operation with
  | register id schema => exact h.register id schema
  | loadFile files path => exact h.loadFile files path
  | loadDirectory files directory => exact h.loadDirectory files directory

theorem reflects_run (operations : List Operation) :
    (run operations).Reflects (operations.flatMap Operation.registers) := by
  have all : ∀ (registry : Registry) registered, registry.Reflects registered →
      (operations.foldl Registry.perform registry).Reflects
        (registered ++ operations.flatMap Operation.registers) := by
    induction operations with
    | nil =>
        intro registry registered h
        simpa using h
    | cons operation rest ih =>
        intro registry registered h
        rw [List.flatMap_cons, ← List.append_assoc]
        exact ih _ _ (h.perform operation)
  exact all _ _ reflects_empty

theorem schema_eq_ok_iff {id : String} :
    registry.schema id = .ok schema ↔ registry.schemas.get? id = some schema := by
  rw [Registry.schema]
  split <;> simp_all

theorem validator_eq_ok_iff {id : String} {validator : Validator} :
    registry.validator id = .ok validator ↔ registry.validators.get? id = some validator := by
  rw [Registry.validator]
  split <;> simp_all

namespace Reflects

theorem exists_validator (h : registry.Reflects registered) {id : String}
    (latest : latest? registered id = some schema) :
    ∃ validator, schema.compile = .ok validator ∧
      registry.validators.get? id = some validator := by
  obtain ⟨entry, hentry, rfl⟩ := Option.map_eq_some_iff.mp latest
  have hmem := List.mem_reverse.mp (List.mem_of_find?_eq_some hentry)
  obtain ⟨validator, compiled⟩ := h.compiled entry hmem
  refine ⟨validator, compiled, ?_⟩
  rw [h.validators, latest, Option.bind_some, compiled]
  rfl

theorem isSome_iff (h : registry.Reflects registered) (id : String) :
    (registry.schemas.get? id).isSome ↔ (registry.validators.get? id).isSome := by
  rw [h.schemas]
  cases hlatest : latest? registered id with
  | none => simp [h.validators, hlatest]
  | some schema =>
      obtain ⟨validator, -, hvalidator⟩ := h.exists_validator hlatest
      rw [hvalidator]
      exact Iff.rfl

theorem compile_of_get? (h : registry.Reflects registered) {id : String} {validator : Validator}
    (stored : registry.validators.get? id = some validator) :
    ∃ schema, registry.schemas.get? id = some schema ∧ schema.compile = .ok validator := by
  obtain ⟨schema, hschema⟩ :=
    Option.isSome_iff_exists.mp ((h.isSome_iff id).mpr (Option.isSome_of_eq_some stored))
  obtain ⟨other, compiled, hother⟩ := h.exists_validator ((h.schemas id).symm.trans hschema)
  obtain rfl : other = validator := Option.some.inj (hother.symm.trans stored)
  exact ⟨schema, hschema, compiled⟩

theorem schema_iff_validator (h : registry.Reflects registered) (id : String) :
    (∃ schema, registry.schema id = .ok schema) ↔
      ∃ validator, registry.validator id = .ok validator := by
  simp only [schema_eq_ok_iff, validator_eq_ok_iff, ← Option.isSome_iff_exists]
  exact h.isSome_iff id

theorem exists_listing (h : registry.Reflects registered) :
    ∃ text, registry.listing = .ok text := by
  have line : ∀ id ∈ registry.ids, ∃ validator, registry.validator id.text = .ok validator := by
    intro id hid
    rw [ids, List.mem_mergeSort] at hid
    simp only [validator_eq_ok_iff, ← Option.isSome_iff_exists]
    exact (h.isSome_iff id.text).mp (IdMap.isSome_get?_of_mem hid)
  -- Over any part of the ids, for the induction to go through.
  have lines : ∀ ids ⊆ registry.ids, ∃ lines, (ids.mapM fun id => do
      return s!"{id}\t{(← registry.validator id.text).rootType}\n") = Except.ok lines := by
    intro ids hids
    induction ids with
    | nil => exact ⟨[], rfl⟩
    | cons id rest ih =>
        obtain ⟨hid, hrest⟩ := List.cons_subset.mp hids
        obtain ⟨validator, hvalidator⟩ := line id hid
        obtain ⟨lines, hlines⟩ := ih hrest
        rw [List.mapM_cons, hvalidator, hlines]
        exact ⟨_, rfl⟩
  obtain ⟨lines, hlines⟩ := lines registry.ids (List.Subset.refl _)
  rw [listing, hlines]
  exact ⟨_, rfl⟩

theorem validate_eq (h : registry.Reflects registered) {id : String}
    (latest : latest? registered id = some schema) :
    ∃ validator, schema.compile = .ok validator ∧ ∀ value limit,
      registry.validate id value limit =
        (validator.validate value limit).mapError RegistryFault.circularLimit := by
  obtain ⟨validator, compiled, hvalidator⟩ := h.exists_validator latest
  refine ⟨validator, compiled, fun value limit => ?_⟩
  rw [validate, validator_eq_ok_iff.mpr hvalidator]
  rfl

theorem validator_eq_missing (h : registry.Reflects registered) {id : String}
    (unregistered : latest? registered id = none) :
    registry.validator id = .error (.missingValidator id) := by
  rw [Registry.validator, h.validators, unregistered, Option.bind_none]

theorem validate_eq_missing_iff (h : registry.Reflects registered) (id : String) (value : Json)
    (limit : Nat) :
    registry.validate id value limit = .error (.missingValidator id) ↔
      ∀ entry ∈ registered, entry.1.text ≠ id := by
  rw [← latest?_eq_none_iff]
  cases hlatest : latest? registered id with
  | none =>
      rw [validate, h.validator_eq_missing hlatest]
      exact iff_of_true rfl rfl
  | some schema =>
      obtain ⟨validator, -, answers⟩ := h.validate_eq hlatest
      rw [answers]
      cases validator.validate value limit <;> simp [Except.mapError]

end Reflects

/-- How loading a directory fails: nothing is done if the files cannot be listed, and otherwise all
files before one that fails are loaded, in order, and no more. -/
def StopsAt (registry : Registry) (files : Files) (directory : Path) (fault : RegistryFault)
    (after : Registry) : Prop :=
  (listDirectory files directory = .error fault ∧ after = registry) ∨
    ∃ (names : List (List String)) (skipped before : List Path) (path : Path) (rest : List Path),
      (names.Pairwise fun a b => ¬ b < a) ∧
      listDirectory files directory = .ok (names.map directory.below, skipped) ∧
      names.map directory.below = before ++ path :: rest ∧
      LoadsAll files registry before after ∧ (after.loadFile files path).1 = .error fault

theorem stopsAt_of_fault {directory : Path} {fault : RegistryFault}
    (stopped : (registry.loadDirectory files directory).fault = some fault) :
    registry.StopsAt files directory fault (registry.loadDirectory files directory).registry := by
  rw [loadDirectory] at stopped ⊢
  cases hlist : listDirectory files directory with
  | error reason =>
      rw [hlist] at stopped
      cases stopped
      exact .inl ⟨hlist, rfl⟩
  | ok listed =>
      obtain ⟨found, skipped⟩ := listed
      rw [hlist] at stopped
      obtain ⟨names, rfl, sorted⟩ := exists_sorted_of_listDirectory hlist
      obtain ⟨before, path, rest, hfound, loads, failed⟩ := exists_of_loadFiles_fault stopped
      exact .inr ⟨names, skipped, before, path, rest, sorted, hlist, hfound, loads, failed⟩

/-- A registry in which `registered` was registered, in order, by calls that may have failed. A call
registers a schema if it compiles, and answers with the validator that this gives. -/
structure Consistent (registry : Registry) (registered : List (SchemaId × Schema)) : Prop where
  sameIds : ∀ id, (registry.schemas.get? id).isSome ↔ (registry.validators.get? id).isSome
  compiled : ∀ id validator, registry.validators.get? id = some validator →
    ∃ schema, registry.schemas.get? id = some schema ∧ schema.compile = .ok validator
  wellFormed : ∀ id ∈ registry.ids,
    id.text ≠ "" ∧ ∀ c ∈ id.text.toList, ¬ Text.isBlank c ∧ c ≠ '/' ∧ c ≠ '\\'
  increasing : (registry.ids.map (·.text)).Pairwise (· < ·)
  counted : registry.ids.length = registry.size
  registers : ∀ id schema, (registry.register id schema).1.map (·.validator) =
    schema.compile.mapError (.build id)
  spelled : ∀ files path id schema,
    readSchema files path = .ok (id, schema) ↔ SpellsSchema files path id schema
  loadsFile : ∀ files path,
    (registry.loadFile files path).1.map (fun entry => (entry.1, entry.2.validator)) =
      readSchema files path >>= fun entry =>
        (entry.2.compile.mapError (.build entry.1)).map (entry.1, ·)
  register_failed : ∀ id schema fault, (registry.register id schema).1 = .error fault →
    (registry.register id schema).2 = registry
  loadFile_failed : ∀ files path fault, (registry.loadFile files path).1 = .error fault →
    (registry.loadFile files path).2 = registry
  loadDirectory_failed : ∀ files directory fault,
    (registry.loadDirectory files directory).fault = some fault →
    registry.StopsAt files directory fault (registry.loadDirectory files directory).registry
  found : ∀ id, (∃ schema, registry.schema id = .ok schema) ↔
    ∃ validator, registry.validator id = .ok validator
  listed : ∃ text, registry.listing = .ok text
  missing : ∀ id value limit, registry.validate id value limit = .error (.missingValidator id) ↔
    ∀ entry ∈ registered, entry.1.text ≠ id
  validated : ∀ before id schema after, registered = before ++ (id, schema) :: after →
    (∀ entry ∈ after, entry.1 ≠ id) →
    ∃ validator, schema.compile = .ok validator ∧ ∀ value limit,
      registry.validate id.text value limit =
        (validator.validate value limit).mapError .circularLimit

/-- After any calls, whether they fail or not, the maps of a registry hold the same ids, what
validates under an id was compiled from the schema that the calls registered there last, and a
further call that fails leaves the registry as it is, up to the files that a directory loads first.
-/
theorem consistent_run (operations : List Operation) :
    (run operations).Consistent (operations.flatMap Operation.registers) where
  sameIds := (reflects_run operations).isSome_iff
  compiled := fun _ _ => (reflects_run operations).compile_of_get?
  wellFormed := fun id _ => id.wellFormed
  increasing := pairwise_ids _
  counted := length_ids _
  registers := map_register _
  spelled := fun _ _ _ _ => readSchema_eq_ok_iff
  loadsFile := map_loadFile _
  register_failed := fun _ _ _ => register_of_error
  loadFile_failed := fun _ _ _ => loadFile_of_error
  loadDirectory_failed := fun _ _ _ => stopsAt_of_fault
  found := (reflects_run operations).schema_iff_validator
  listed := (reflects_run operations).exists_listing
  missing := (reflects_run operations).validate_eq_missing_iff
  validated := by
    intro before id schema after hregistered last
    refine (reflects_run operations).validate_eq ?_
    rw [hregistered]
    exact latest?_of_append last

end Registry

end Conform
