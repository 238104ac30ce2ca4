import Conform.Files.Basic
import Conform.Json.Basic

/-!
File trees in memory. The top of a tree is the current directory; nothing is known of what lies
outside.
-/

namespace Conform

inductive FileTree where
  | file (content : ByteArray)
  | link (target : String)
  | directory (entries : List (String × FileTree))

/-- Where something is: the names that lead there from the top, innermost first, or outside. -/
abbrev Place := Option (List String)

def Place.outer : Place → Place
  | some (_ :: names) => some names
  | _ => none

namespace FileTree

def empty : FileTree := .directory []

def child? (name : String) : FileTree → Option FileTree
  | .directory entries => Json.field? entries name
  | _ => none

def at? (tree : FileTree) : Place → Option FileTree
  | none => some empty
  | some names => names.reverse.foldlM (fun node name => child? name node) tree

def isDirectory : FileTree → Bool
  | .directory _ => true
  | _ => false

def nameLimit : Nat := 255

def pathLimit : Nat := 4095

/-- Follows the pieces of a path from a place with `here` at it, and up to `links` links on the way.
Only the last piece may lead to nothing. -/
def followFrom (tree : FileTree) (links : Nat) (place : Place) (here : Option FileTree)
    (pieces : List String) : Except FileFault (Place × Option FileTree) :=
  match pieces with
  | [] => .ok (place, here)
  | piece :: rest =>
    if !here.any isDirectory then .error .notADirectory
    else if piece == "" || piece == "." then tree.followFrom links place here rest
    else if piece == ".." then
      let outer := Place.outer place
      tree.followFrom links outer (tree.at? outer) rest
    else if nameLimit < piece.utf8ByteSize then .error .nameTooLong
    else
      let inner := place.map (piece :: ·)
      match here.bind (child? piece) with
      | none => if rest.isEmpty then .ok (inner, none) else .error .notFound
      | some (.link target) =>
        match links with
        | 0 => .error .tooManyLinks
        | links + 1 =>
          let start := if Path.isAbsolute ⟨target⟩ then none else place
          tree.followFrom links start (tree.at? start) (Path.pieces ⟨target⟩ ++ rest)
      | some node => tree.followFrom links inner (some node) rest
termination_by (links, pieces.length)

def follow (tree : FileTree) (links : Nat) (place : Place) (pieces : List String) :
    Except FileFault (Place × Option FileTree) :=
  tree.followFrom links place (tree.at? place) pieces

def linkLimit : Nat := 40

def locate (tree : FileTree) (path : Path) : Except FileFault (Place × Option FileTree) :=
  if path.hasNul then .error .nulInName
  else if path.text.isEmpty then .error .notFound
  else if pathLimit < path.text.utf8ByteSize then .error .nameTooLong
  else tree.follow linkLimit (if path.isAbsolute then none else some []) path.pieces

def find (tree : FileTree) (path : Path) : Except FileFault (Place × FileTree) := do
  match ← tree.locate path with
  | (place, some node) => return (place, node)
  | (_, none) => throw .notFound

private def insert (new : FileTree) : List String → FileTree → FileTree
  | [], _ => new
  | name :: rest, node =>
    let entries := match node with
      | .directory entries => entries
      | _ => []
    .directory (Json.setField name (insert new rest ((child? name node).getD empty)) entries)

private def putMissing (tree : FileTree) (path : Path) (new : FileTree) : FileTree :=
  match tree.locate path with
  | .ok (some names, none) => insert new names.reverse tree
  | _ => tree

def makeDirectory (tree : FileTree) (path : Path) : FileTree :=
  (List.range path.pieces.length).foldl
    (fun tree i => tree.putMissing ⟨"/".intercalate (path.pieces.take (i + 1))⟩ empty) tree

private def makeParent (tree : FileTree) (path : Path) : FileTree :=
  match path.parent? with
  | some parent => tree.makeDirectory parent
  | none => tree

def addLink (tree : FileTree) (path : Path) (target : String) : FileTree :=
  (tree.makeParent path).putMissing path (.link target)

def write (tree : FileTree) (path : Path) (content : ByteArray) : FileTree :=
  let tree := tree.makeParent path
  match tree.locate path with
  | .ok (some names, none) | .ok (some names, some (.file _)) =>
    insert (.file content) names.reverse tree
  | _ => tree

mutual

def entryOf (tree : FileTree) (around : List String) (name : String) : FileTree → Entry
  | .file _ => .file name
  | .link _ =>
    match tree.follow linkLimit (some around) [name] with
    | .ok (_, some (.directory _)) => .directoryLink name
    | _ => .file name
  | .directory entries => .directory name (entriesOf tree (name :: around) entries)

def entriesOf (tree : FileTree) (around : List String) :
    List (String × FileTree) → List Entry
  | [] => []
  | (name, node) :: rest => entryOf tree around name node :: entriesOf tree around rest

end

def read (tree : FileTree) (path : Path) : Except FileFault String := do
  match ← tree.find path with
  | (_, .file content) =>
    match String.fromUTF8? content with
    | some text => return text
    | none => throw .notText
  | _ => throw .isADirectory

def directory? (tree : FileTree) (path : Path) :
    Option (Except FileFault (List Entry)) :=
  match tree.find path with
  | .ok (place, .directory entries) => some (.ok (entriesOf tree (place.getD []) entries))
  | _ => none

def files (tree : FileTree) : Files := ⟨tree.read, tree.directory?⟩

end FileTree
end Conform
