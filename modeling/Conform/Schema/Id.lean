import Conform.Schema.Fault
import Conform.Text.Blank

namespace Conform

def idDefect? (text : String) : Option String :=
  if text.isEmpty then some "must not be empty"
  else if text.toList.any Text.isBlank then some "must not contain whitespace"
  else if text.toList.any (fun c => c == '/' || c == '\\') then
    some "must not contain path separators"
  else none

structure SchemaId where
  text : String
  valid : idDefect? text = none
deriving DecidableEq

namespace SchemaId

instance : ToString SchemaId := ⟨SchemaId.text⟩

def ofText (text : String) : Except SchemaFault SchemaId :=
  match h : idDefect? text with
  | none => .ok ⟨text, h⟩
  | some reason => .error (.invalidId text reason)

end SchemaId
end Conform
