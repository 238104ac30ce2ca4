import Conform.Yaml.Character

/-!
Blanks and line breaks inside a scalar that may run over several lines. A single break joins two
lines by a space; of more breaks the first is dropped.
-/

namespace Conform.Yaml

inductive Gap where
  | none
  | blanks (chars : List Char)
  /-- Breaks, with the blanks around them dropped: the first one, unless it was escaped, and then
  the others, in reverse. -/
  | breaks (first : Option Char) (others : List Char)

namespace Gap

def addBlank (c : Char) : Gap → Gap
  | .none => .blanks [c]
  | .blanks chars => .blanks (c :: chars)
  | .breaks first others => .breaks first others

def addBreak (c : Char) : Gap → Gap
  | .breaks first others => .breaks first (c :: others)
  | _ => .breaks (some c) []

def hasBreak : Gap → Bool
  | .breaks _ _ => true
  | _ => false

def isNone : Gap → Bool
  | .none => true
  | _ => false

def joined : Gap → List Char
  | .none => []
  | .blanks chars => chars
  | .breaks (some '\n') [] => [' ']
  | .breaks (some '\n') others => others
  | .breaks first others => others ++ first.toList

end Gap
end Conform.Yaml
