import Conform.Files.Tree
import Conform.Proofs.Json.Fields
import Conform.Proofs.Pointwise

namespace Conform.FileTree

/-- The same tree, except that its directories, which hold each name once and no name with a slash
in it, may list the names in another order. -/
inductive Relisted : FileTree → FileTree → Prop
  | file (content : ByteArray) : Relisted (.file content) (.file content)
  | link (target : String) : Relisted (.link target) (.link target)
  | directory {entries entries' : List (String × FileTree)}
      (distinct : (entries.map (·.1)).Nodup)
      (noSlash : ∀ name ∈ entries.map (·.1), '/' ∉ name.toList)
      (names : (entries'.map (·.1)).Perm (entries.map (·.1)))
      (each : ∀ name node node', (name, node) ∈ entries → (name, node') ∈ entries' →
        Relisted node node') : Relisted (.directory entries) (.directory entries')

inductive WellFormed : FileTree → Prop
  | file (content : ByteArray) : WellFormed (.file content)
  | link (target : String) : WellFormed (.link target)
  | directory {entries : List (String × FileTree)} (distinct : (entries.map (·.1)).Nodup)
      (noSlash : ∀ name ∈ entries.map (·.1), '/' ∉ name.toList)
      (each : ∀ name node, (name, node) ∈ entries → WellFormed node) :
      WellFormed (.directory entries)

inductive Alike {α β : Type} (R : α → β → Prop) :
    Except FileFault (Place × α) → Except FileFault (Place × β) → Prop
  | error (fault : FileFault) : Alike R (.error fault) (.error fault)
  | ok (place : Place) {a : α} {b : β} (found : R a b) : Alike R (.ok (place, a)) (.ok (place, b))

variable {tree tree' node node' : FileTree} {here here' : Option FileTree}

namespace Relisted

theorem symm (relisted : node.Relisted node') : node'.Relisted node := by
  induction relisted with
  | file content => exact .file content
  | link target => exact .link target
  | directory distinct noSlash names _ ih =>
      exact .directory (names.nodup_iff.mpr distinct)
        (fun name hname => noSlash name (names.mem_iff.mp hname)) names.symm
        fun name node' node hnode' hnode => ih name node node' hnode hnode'

theorem directory_of_field? {entries entries' : List (String × FileTree)}
    (distinct : (entries.map (·.1)).Nodup) (noSlash : ∀ name ∈ entries.map (·.1), '/' ∉ name.toList)
    (names : (entries'.map (·.1)).Perm (entries.map (·.1)))
    (each : ∀ entry ∈ entries, ∃ node', Json.field? entries' entry.1 = some node' ∧
      entry.2.Relisted node') : Relisted (.directory entries) (.directory entries') := by
  refine .directory distinct noSlash names fun name node node' hnode hnode' => ?_
  obtain ⟨_, found, related⟩ := each _ hnode
  rw [← Json.field?_eq_some_iff (names.nodup_iff.mpr distinct)] at hnode'
  cases hnode'.symm.trans found
  exact related

theorem wellFormed (relisted : node.Relisted node') : node.WellFormed := by
  induction relisted with
  | file content => exact .file content
  | link target => exact .link target
  | directory distinct noSlash names _ ih =>
      refine .directory distinct noSlash fun name node hnode => ?_
      obtain ⟨⟨_, node'⟩, hnode', rfl⟩ :=
        List.mem_map.mp (names.mem_iff.mpr (List.mem_map_of_mem hnode))
      exact ih _ node node' hnode hnode'

theorem exists_entry {entries entries' : List (String × FileTree)} {name : String}
    (relisted : Relisted (.directory entries) (.directory entries'))
    (entry : (name, node) ∈ entries) : ∃ node', (name, node') ∈ entries' ∧ node.Relisted node' := by
  cases relisted with
  | directory _ _ names each =>
      obtain ⟨⟨_, node'⟩, hnode', rfl⟩ :=
        List.mem_map.mp (names.mem_iff.mpr (List.mem_map_of_mem entry))
      exact ⟨node', hnode', each _ node node' entry hnode'⟩

theorem empty : FileTree.empty.Relisted FileTree.empty :=
  .directory .nil (List.forall_mem_nil _) (.refl _) fun _ _ _ h => by cases h

theorem isDirectory_eq (relisted : node.Relisted node') :
    node'.isDirectory = node.isDirectory := by
  cases relisted <;> rfl

theorem any_isDirectory_eq (same : Option.Rel Relisted here here') :
    here'.any isDirectory = here.any isDirectory := by
  cases same with
  | none => rfl
  | some relisted => exact relisted.isDirectory_eq

theorem child? (relisted : node.Relisted node') (name : String) :
    Option.Rel Relisted (FileTree.child? name node) (FileTree.child? name node') := by
  cases relisted with
  | directory distinct _ names each =>
      exact Json.field?_rel distinct names fun node node' => each name node node'
  | _ => exact .none

theorem bind_child? (same : Option.Rel Relisted here here') (name : String) :
    Option.Rel Relisted (here.bind (FileTree.child? name)) (here'.bind (FileTree.child? name)) := by
  cases same with
  | none => exact .none
  | some relisted => exact relisted.child? name

theorem at? (relisted : tree.Relisted tree') (place : Place) :
    Option.Rel Relisted (tree.at? place) (tree'.at? place) := by
  cases place with
  | none => exact .some empty
  | some names =>
      rw [FileTree.at?, FileTree.at?]
      induction names.reverse generalizing tree tree' with
      | nil => exact .some relisted
      | cons name rest ih =>
          rw [List.foldlM_cons, List.foldlM_cons]
          have same := relisted.child? name
          cases hchild : FileTree.child? name tree with
          | none =>
              rw [hchild] at same
              rw [eq_none_of_rel same]
              exact .none
          | some inner =>
              rw [hchild] at same
              obtain ⟨inner', hchild', related⟩ := exists_of_rel_some same
              rw [hchild']
              exact ih related

theorem followFrom (relisted : tree.Relisted tree') {links : Nat} {place : Place}
    {pieces : List String} (same : Option.Rel Relisted here here') :
    Alike (Option.Rel Relisted) (tree.followFrom links place here pieces)
      (tree'.followFrom links place here' pieces) := by
  -- Both walks take the same turns and pass the same links, so one recursion serves for both.
  fun_induction tree.followFrom links place here pieces generalizing here' with
  | case1 links place here =>
      rw [FileTree.followFrom]
      exact .ok place same
  | case2 links place here piece rest noDirectory =>
      rw [FileTree.followFrom, any_isDirectory_eq same, if_pos noDirectory]
      exact .error _
  | case3 links place here piece rest directory void ih =>
      rw [FileTree.followFrom, any_isDirectory_eq same, if_neg directory, if_pos void]
      exact ih same
  | case4 links place here piece rest directory void up outer =>
      rename_i ih
      rw [FileTree.followFrom, any_isDirectory_eq same, if_neg directory, if_neg void, if_pos up]
      exact ih (relisted.at? outer)
  | case5 links place here piece rest directory void up long =>
      rw [FileTree.followFrom, any_isDirectory_eq same, if_neg directory, if_neg void, if_neg up,
        if_pos long]
      exact .error _
  | case6 links place here piece rest directory void up short inner nothing =>
      rename_i last
      have nothing' := eq_none_of_rel (nothing ▸ bind_child? same piece)
      rw [FileTree.followFrom, any_isDirectory_eq same, if_neg directory, if_neg void, if_neg up,
        if_neg short, nothing']
      simp only [last, if_true]
      exact .ok _ .none
  | case7 links place here piece rest directory void up short nothing notLast =>
      have nothing' := eq_none_of_rel (nothing ▸ bind_child? same piece)
      rw [FileTree.followFrom, any_isDirectory_eq same, if_neg directory, if_neg void, if_neg up,
        if_neg short, nothing']
      simp only [notLast]
      exact .error _
  | case8 place here piece rest directory void up short target hlink =>
      obtain ⟨_, hlink', ⟨⟩⟩ := exists_of_rel_some (hlink ▸ bind_child? same piece)
      rw [FileTree.followFrom, any_isDirectory_eq same, if_neg directory, if_neg void, if_neg up,
        if_neg short, hlink']
      exact .error _
  | case9 place here piece rest directory void up short target hlink links start =>
      rename_i ih
      obtain ⟨_, hlink', ⟨⟩⟩ := exists_of_rel_some (hlink ▸ bind_child? same piece)
      rw [FileTree.followFrom, any_isDirectory_eq same, if_neg directory, if_neg void, if_neg up,
        if_neg short, hlink']
      exact ih (relisted.at? start)
  | case10 links place here piece rest directory void up short inner node noLink hnode =>
      rename_i ih
      obtain ⟨node', hnode', related⟩ := exists_of_rel_some (hnode ▸ bind_child? same piece)
      rw [FileTree.followFrom, any_isDirectory_eq same, if_neg directory, if_neg void, if_neg up,
        if_neg short, hnode']
      cases related with
      | link target => exact (noLink target rfl).elim
      | file content => exact ih (.some (.file content))
      | directory distinct noSlash names each =>
          exact ih (.some (.directory distinct noSlash names each))

theorem follow (relisted : tree.Relisted tree') (links : Nat) (place : Place)
    (pieces : List String) :
    Alike (Option.Rel Relisted) (tree.follow links place pieces)
      (tree'.follow links place pieces) :=
  relisted.followFrom (relisted.at? place)

theorem locate (relisted : tree.Relisted tree') (path : Path) :
    Alike (Option.Rel Relisted) (tree.locate path) (tree'.locate path) := by
  rw [FileTree.locate, FileTree.locate]
  split_ifs
  · exact .error _
  · exact .error _
  · exact .error _
  · exact relisted.follow _ _ _
  · exact relisted.follow _ _ _

theorem find (relisted : tree.Relisted tree') (path : Path) :
    Alike Relisted (tree.find path) (tree'.find path) := by
  have located := relisted.locate path
  rw [FileTree.find, FileTree.find]
  generalize tree.locate path = outcome, tree'.locate path = outcome' at located ⊢
  cases located with
  | error fault => exact .error fault
  | ok place here =>
      cases here with
      | none => exact .error .notFound
      | some related => exact .ok place related

theorem find_directory {path : Path} {place : Place} {entries : List (String × FileTree)}
    (relisted : tree.Relisted tree') (found : tree.find path = .ok (place, .directory entries)) :
    ∃ entries', tree'.find path = .ok (place, .directory entries') ∧
      Relisted (.directory entries) (.directory entries') := by
  have alike := relisted.find path
  rw [found] at alike
  generalize tree'.find path = outcome at alike ⊢
  cases alike with
  | ok _ related =>
      cases related with
      | directory distinct noSlash names each =>
          exact ⟨_, rfl, .directory distinct noSlash names each⟩

theorem read_eq (relisted : tree.Relisted tree') : tree'.read = tree.read := by
  funext path
  have found := relisted.find path
  rw [FileTree.read, FileTree.read]
  generalize tree.find path = outcome, tree'.find path = outcome' at found ⊢
  cases found with
  | error fault => rfl
  | ok place related => cases related <;> rfl

theorem files_eq (relisted : tree.Relisted tree') :
    tree'.files = ⟨tree.files.read, tree'.files.directory?⟩ := by
  rw [files, files, relisted.read_eq]

end Relisted

theorem WellFormed.relisted (wellFormed : node.WellFormed) : node.Relisted node := by
  induction wellFormed with
  | file content => exact .file content
  | link target => exact .link target
  | directory distinct noSlash _ ih =>
      exact .directory_of_field? distinct noSlash (.refl _) fun (name, node) hnode =>
        ⟨node, (Json.field?_eq_some_iff distinct).mpr hnode, ih name node hnode⟩

theorem WellFormed.of_find {path : Path} {place : Place} {entries : List (String × FileTree)}
    (wellFormed : tree.WellFormed) (found : tree.find path = .ok (place, .directory entries)) :
    WellFormed (.directory entries) := by
  obtain ⟨_, -, same⟩ := wellFormed.relisted.find_directory found
  exact same.wellFormed

end Conform.FileTree
