import Conform.Numeric.Numeral
import Conform.Yaml.Token
import Conform.Yaml.Value

namespace Conform.Yaml

private def nullTexts : List String := ["null", "Null", "NULL", "~"]

private def booleanOf? (text : String) : Option Bool :=
  if text ∈ ["true", "True", "TRUE"] then some true
  else if text ∈ ["false", "False", "FALSE"] then some false
  else none

private def isDigitOf (base : Nat) (c : Char) : Bool :=
  match base with
  | 2 => c == '0' || c == '1'
  | 8 => '0' ≤ c && c ≤ '7'
  | 16 => c.isDigit || ('a' ≤ c && c ≤ 'f') || ('A' ≤ c && c ≤ 'F')
  | _ => c.isDigit

private def digitValue (c : Char) : Nat :=
  if c.isDigit then c.toNat - '0'.toNat else c.toUpper.toNat - 'A'.toNat + 10

private def naturalOf? (base : Nat) (digits : List Char) : Option Nat :=
  if !digits.isEmpty && digits.all (isDigitOf base) then
    some (digits.foldl (fun n c => base * n + digitValue c) 0)
  else none

private def hasLeadingZero (digits : List Char) : Bool :=
  1 < digits.length && digits.head? == some '0' && digits.all Char.isDigit

private def magnitudeOf? : List Char → Option Nat
  | '0' :: 'x' :: digits => naturalOf? 16 digits
  | '0' :: 'o' :: digits => naturalOf? 8 digits
  | '0' :: 'b' :: digits => naturalOf? 2 digits
  | digits => if hasLeadingZero digits then none else naturalOf? 10 digits

private def withoutSign : List Char → List Char
  | '+' :: rest => rest
  | '-' :: rest => rest
  | rest => rest

def integerOf? (text : String) : Option Int :=
  let chars := text.toList
  let value := (magnitudeOf? (withoutSign chars)).map Int.ofNat
  if chars.head? == some '-' then value.map (-·) else value

def unsignedOf? (text : String) : Option Nat := do
  let n ← integerOf? text
  guard (text.toList.head? != some '-' && n < 0x10000000000000000)
  return n.toNat

def floatOf? (text : String) : Option YamlNumber :=
  let unsigned := if text.toList.head? == some '+' then String.ofList text.toList.tail else text
  if text.toList.head? == some '+' && (unsigned.toList.head?.any fun c => c == '+' || c == '-') then
    none
  else if unsigned ∈ [".inf", ".Inf", ".INF"] then some (.infinity false)
  else if text ∈ ["-.inf", "-.Inf", "-.INF"] then some (.infinity true)
  else if text ∈ [".nan", ".NaN", ".NAN"] then some .nan
  else (Binary64.ofText? unsigned).map fun x => .finite (.float x)

/-- Integers of 128 bits, signed or unsigned: those of them that have no value here are refused,
while larger ones count as binary numbers. -/
private abbrev IsWideInteger (n : Int) : Prop :=
  -0x80000000000000000000000000000000 ≤ n ∧ n < 0x100000000000000000000000000000000

private def floatOrText (text : String) : Yaml :=
  if hasLeadingZero (withoutSign text.toList) then .string text
  else (floatOf? text).elim (.string text) .number

private def ofInteger? (n : Int) (otherwise : Option Yaml) : Option Yaml :=
  if h : InIntegerRange n then some (.number (.finite (.int n h)))
  else if IsWideInteger n then none
  else otherwise

def ofPlainText? (text : String) : Option Yaml :=
  if text = "" ∨ text ∈ nullTexts then some .null
  else
    match booleanOf? text, integerOf? text with
    | some b, _ => some (.bool b)
    | none, some n => ofInteger? n (some (floatOrText text))
    | none, none => some (floatOrText text)

/-- The value of a text with a tag. A tag that names no scalar type makes it a string. -/
def ofTypedText? (tag : Tag) (text : String) : Option Yaml :=
  match tag.text? with
  | some "tag:yaml.org,2002:bool" => (booleanOf? text).map .bool
  | some "tag:yaml.org,2002:int" => (integerOf? text).bind fun n => ofInteger? n none
  | some "tag:yaml.org,2002:float" => (floatOf? text).map .number
  | some "tag:yaml.org,2002:null" => if text ∈ nullTexts then some .null else none
  | _ => some (.string text)

end Conform.Yaml
