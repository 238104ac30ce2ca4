import Conform.Json.Native
import Conform.Validator.Validation

namespace Conform

inductive AssertFault where
  | invalid (mismatches : List Mismatch)
  | circularLimit (reached : LimitReached)
  | serialization (fault : SerializationFault)

namespace AssertFault

def message : AssertFault → String
  | .invalid mismatches =>
    s!"{mismatches.length} validation error(s):\n{Mismatch.listText mismatches}"
  | .circularLimit reached => reached.message
  | .serialization fault => s!"value could not be converted to JSON: {fault.message}"

def mismatches? : AssertFault → Option (List Mismatch)
  | .invalid mismatches => some mismatches
  | _ => none

end AssertFault

namespace Validator

def assert (validator : Validator) (value : Json) (limit : Nat) : Except AssertFault Unit :=
  match validator.validate value limit with
  | .error reached => .error (.circularLimit reached)
  | .ok [] => .ok ()
  | .ok mismatches => .error (.invalid mismatches)

def assertNative (validator : Validator) (value : Native) (limit : Nat) :
    Except AssertFault Unit :=
  match value.toJson with
  | .error fault => .error (.serialization fault)
  | .ok document => validator.assert document limit

end Validator
end Conform
