import Conform.Json.Token
import Conform.Numeric.Approximation

namespace Conform.Json

private inductive Frame where
  | array (items : List Json)
  | object (entries : List (String × Json)) (key : String)

private inductive Reading where
  | value (stack : List Frame)
  | firstItem (stack : List Frame)
  | firstKey (stack : List Frame)
  | key (entries : List (String × Json)) (stack : List Frame)
  | colon (entries : List (String × Json)) (key : String) (stack : List Frame)
  | after (value : Json) (stack : List Frame)

private def isIgnored (ignores : String → Bool) (stack : List Frame) : Bool :=
  match stack.getLast? with
  | some (.object _ key) => ignores key
  | _ => false

private def beginValue (ignores : String → Bool) (stack : List Frame) : Token → Option Reading
  | .openArray => some (.firstItem stack)
  | .openObject => some (.firstKey stack)
  | .string s => some (.after (.string s) stack)
  | .scalar value => some (.after value stack)
  | .unreadable => if isIgnored ignores stack then some (.after .null stack) else none
  | _ => none

private def beginEntry (ignores : String → Bool) (entries : List (String × Json))
    (stack : List Frame) : Token → Option Reading
  | .string key => some (.colon entries key stack)
  | .unreadable => if isIgnored ignores stack then some (.colon entries "" stack) else none
  | _ => none

private def step (ignores : String → Bool) : Reading → Token → Option Reading
  | .value stack, token => beginValue ignores stack token
  | .firstItem stack, .closeArray => some (.after (.array []) stack)
  | .firstItem stack, token => beginValue ignores (.array [] :: stack) token
  | .firstKey stack, .closeObject => some (.after (.object []) stack)
  | .firstKey stack, token => beginEntry ignores [] stack token
  | .key entries stack, token => beginEntry ignores entries stack token
  | .colon entries key stack, .colon => some (.value (.object entries key :: stack))
  | .after value (.array items :: stack), .comma => some (.value (.array (value :: items) :: stack))
  | .after value (.array items :: stack), .closeArray =>
    some (.after (.array (value :: items).reverse) stack)
  | .after value (.object entries key :: stack), .comma =>
    some (.key ((key, value) :: entries) stack)
  | .after value (.object entries key :: stack), .closeObject =>
    some (.after (.object ((key, value) :: entries).reverse) stack)
  | _, _ => none

/-- The value that a sequence of tokens spells. A field of the outermost object that is ignored need
only be well formed: what is unreadable there is left blank. -/
def ofTokens? (ignores : String → Bool) (tokens : List Token) : Option Json := do
  match ← tokens.foldlM (step ignores) (.value []) with
  | .after value [] => some value
  | _ => none

/-- The value that a text spells, with every entry of its objects in place. Its numbers are the
nearest ones. -/
def ofText? (text : String) : Option Json := do
  ofTokens? (fun _ => false) (← Token.ofText? Numeral.toBinary64? text)

/-- The value that a file spells, some fields ignored. Its numbers are read quickly rather than to
the nearest. -/
def ofFileText? (ignores : String → Bool) (text : String) : Option Json := do
  ofTokens? ignores (← Token.ofText? Numeral.approximate? text)

def depthLimit : Nat := 127

end Conform.Json
