import Conform.Yaml.Lexeme.Quoted
import Conform.Yaml.Token

namespace Conform.Yaml

def scanAnchor (source : Source) : Option (String × Source) := do
  let name := source.takeWhile isNameChar
  let rest := source.dropWhile isNameChar
  guard (!name.isEmpty && (rest.atGap || rest.headIs fun c =>
    c == '?' || c == ':' || c == ',' || c == ']' || c == '}' || c == '%' || c == '@' ||
      c == '\x60'))
  return (String.ofList name, rest)

private def isTagChar (inFull : Bool) (c : Char) : Bool :=
  isNameChar c || c == ';' || c == '/' || c == '?' || c == ':' || c == '@' || c == '&' ||
    c == '=' || c == '+' || c == '$' || c == '.' || c == '%' || c == '!' || c == '~' || c == '*' ||
    c == '\'' || c == '(' || c == ')' || (inFull && (c == ',' || c == '[' || c == ']'))

private def announced? (byte : Nat) : Option Nat :=
  if byte < 0x80 then some 0
  else if 0xC0 ≤ byte ∧ byte < 0xE0 then some 1
  else if 0xE0 ≤ byte ∧ byte < 0xF0 then some 2
  else if 0xF0 ≤ byte ∧ byte < 0xF8 then some 3
  else none

/-- The bytes that characters of a tag spell, `%` with two digits being one byte. Those announced by
an escaped byte are escaped as well, and follow at once. -/
private def tagBytes (announced : Nat) : List Char → Option (List UInt8)
  | [] => if announced = 0 then some [] else none
  | '%' :: a :: b :: rest => do
    let byte := 16 * (← hexDigit? a) + (← hexDigit? b)
    guard (announced = 0 || (0x80 ≤ byte && byte < 0xC0))
    let announced ← if announced = 0 then announced? byte else some (announced - 1)
    return byte.toUInt8 :: (← tagBytes announced rest)
  | c :: rest => do
    guard (announced = 0 && c != '%')
    return c.toNat.toUInt8 :: (← tagBytes 0 rest)

private def tagOf? (chars : List Char) : Option Tag := (tagBytes 0 chars).map Tag.ofBytes

/-- `!`, or `!name!`, or what starts like that without being a handle. -/
private def takeHandle : Source → List Char × Source
  | m :: rest =>
    if m.char = '!' then
      let name := Source.takeWhile isNameChar rest
      let after := Source.dropWhile isNameChar rest
      if after.headIs (· == '!') then ('!' :: name ++ ['!'], after.tail) else ('!' :: name, after)
    else ([], m :: rest)
  | [] => ([], [])

def scanTag (flow : Bool) (source : Source) : Option (String × Tag × Source) := do
  let (handle, suffix, rest) ←
    if Source.headIs (· == '<') source.tail then do
      let inner : Source := source.drop 2
      let chars := inner.takeWhile (isTagChar true)
      let rest := inner.dropWhile (isTagChar true)
      guard (!chars.isEmpty && rest.headIs (· == '>'))
      pure ("", ← tagOf? chars, rest.tail)
    else do
      let (handle, rest) := takeHandle source
      let chars := rest.takeWhile (isTagChar false)
      let after := rest.dropWhile (isTagChar false)
      let suffix ← tagOf? chars
      if 1 < handle.length && handle.getLast? == some '!' then
        guard (!chars.isEmpty)
        pure (String.ofList handle, suffix, after)
      else
        let suffix := Tag.ofText (String.ofList handle.tail) ++ suffix
        pure (if suffix.isEmpty then ("", Tag.ofText "!", after) else ("!", suffix, after))
  guard (Source.atGap rest || (flow && Source.headIs (· == ',') rest))
  return (handle, suffix, rest)

private def takeNumber? (source : Source) : Option (Nat × Source) := do
  let digits := source.takeWhile Char.isDigit
  guard (!digits.isEmpty && digits.length ≤ 9)
  let value := digits.foldl (fun n c => 10 * n + (c.toNat - '0'.toNat)) 0
  return (value, source.dropWhile Char.isDigit)

private def scanVersion (source : Source) : Option (Token × Source) := do
  let (major, rest) ← takeNumber? source
  guard (Source.headIs (· == '.') rest)
  let (minor, rest) ← takeNumber? rest.tail
  return (.versionDirective major minor, rest)

private def scanShorthand (source : Source) : Option (Token × Source) := do
  let (handle, rest) := takeHandle source
  guard (handle == ['!'] || (1 < handle.length && handle.getLast? == some '!'))
  guard (rest.headIs isBlank)
  let rest := rest.dropWhile isBlank
  let chars := rest.takeWhile (isTagChar true)
  let after := rest.dropWhile (isTagChar true)
  guard (!chars.isEmpty && after.atGap)
  return (.tagDirective (String.ofList handle) (← tagOf? chars), after)

def scanDirective (source : Source) : Option (Token × Source) := do
  let name := String.ofList (source.takeWhile isNameChar)
  let rest := source.dropWhile isNameChar
  guard rest.atGap
  let rest := rest.dropWhile isBlank
  let (token, rest) ←
    if name = "YAML" then scanVersion rest
    else if name = "TAG" then scanShorthand rest
    else none
  let rest := Source.dropLineRest rest
  guard rest.atLineEnd
  return (token, rest.tail)

end Conform.Yaml
