/-!
Paths as they are written, with `/` between their components. Empty components and `.` change
nothing, except that a path may begin with them.
-/

namespace Conform

structure Path where
  text : String
deriving DecidableEq

namespace Path

instance : ToString Path := ⟨Path.text⟩

def isAbsolute (path : Path) : Bool := path.text.toList.head? == some '/'

def hasNul (path : Path) : Bool := path.text.contains '\x00'

def pieces (path : Path) : List String := (path.text.toList.splitOn '/').map String.ofList

def isVoid (piece : String) : Bool := piece == "" || piece == "."

def name? (path : Path) : Option String :=
  (path.pieces.filter (!isVoid ·)).getLast?.filter (· ≠ "..")

/-- What stands behind the last dot of the name, unless that dot begins it. -/
def ending? (path : Path) : Option String := do
  match ((← path.name?).toList.splitOn '.').reverse with
  | ending :: before =>
    if before.isEmpty || before == [[]] then none else some (String.ofList ending)
  | [] => none

def parent? (path : Path) : Option Path :=
  match path.pieces with
  | [] => none
  | first :: rest =>
    match rest.reverse.dropWhile isVoid with
    | [] => if first.isEmpty then none else some ⟨""⟩
    | _ :: before =>
      match (before.dropWhile isVoid).reverse with
      | [] => some ⟨if first.isEmpty then "/" else first⟩
      | kept => some ⟨"/".intercalate (first :: kept)⟩

def join (path other : Path) : Path :=
  if other.isAbsolute || path.text.isEmpty then other
  else if path.text.toList.getLast? == some '/' then ⟨path.text ++ other.text⟩
  else ⟨path.text ++ "/" ++ other.text⟩

def below (path : Path) (names : List String) : Path :=
  names.foldl (fun path name => path.join ⟨name⟩) path

end Path
end Conform
