/-!
Tags of YAML nodes. A tag is bytes rather than text, since the escapes in it may spell bytes that
are no text.
-/

namespace Conform.Yaml

/-- A tag in full, or a part of one. -/
structure Tag where
  bytes : List UInt8
deriving DecidableEq

namespace Tag

/-- What the bytes of a tag spell: it ends before the first byte that is zero. -/
def ofBytes (bytes : List UInt8) : Tag := ⟨bytes.takeWhile (· != 0)⟩

def ofText (text : String) : Tag := ofBytes text.toUTF8.toList

instance : Append Tag := ⟨fun a b => ⟨a.bytes ++ b.bytes⟩⟩

def isEmpty (tag : Tag) : Bool := tag.bytes.isEmpty

def text? (tag : Tag) : Option String := String.fromUTF8? tag.bytes.toByteArray

def isLocal (tag : Tag) : Bool := tag.bytes.head? == some '!'.toNat.toUInt8

def dropMark (text : String) : String :=
  match text.toList with
  | '!' :: c :: rest => String.ofList (c :: rest)
  | _ => text

def localName? (tag : Tag) : Option String :=
  if tag.isLocal then tag.text?.map dropMark else none

end Tag
end Conform.Yaml
