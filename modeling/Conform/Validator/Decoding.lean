import Conform.Decoding.Fields
import Conform.Validator.Mismatch

namespace Conform.Mismatch

open Decoding

private def messageField : RecordField String := { name := "message", read := text }

private def pathField : RecordField (List String) := { name := "path", read := listOf text }

private def kindField : RecordField MismatchKind :=
  { name := "kind", read := variant false MismatchKind.name MismatchKind.all }

def decode : Decoder Mismatch
  | .mapping entries => do
    let (message, path, kind) ← entries₃ messageField pathField kindField entries
    return ⟨message, path, kind⟩
  | .sequence items => do
    let (message, path, kind) ← items₃ messageField pathField kindField
      "struct ValidationError with 3 elements" fewerInArray items
    return ⟨message, path, kind⟩
  | other => .error (.invalidType other "struct ValidationError")

end Conform.Mismatch
