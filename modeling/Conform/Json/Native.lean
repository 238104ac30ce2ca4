import Conform.Json.Writer

namespace Conform

inductive Native where
  | json (value : Json)
  /-- A binary number; infinities and what is no number are `none`. -/
  | float (x : Option Binary64)
  | natural (n : Nat)
  | bytes (data : List UInt8)
  | unit
  | present (value : Native)
  | variant (name : String) (value : Native)
  | sequence (items : List Native)
  | mapping (entries : List (Native × Native))
  | failure (reason : String)

inductive SerializationFault where
  | numberOutOfRange
  | keyMustBeString
  | keyNotFinite
  | custom (reason : String)
deriving DecidableEq

def SerializationFault.message : SerializationFault → String
  | .numberOutOfRange => "number out of range"
  | .keyMustBeString => "key must be a string"
  | .keyNotFinite => "float key must be finite (got NaN or +/-inf)"
  | .custom reason => reason

namespace Native

def keyText : Native → Except SerializationFault String
  | .json (.string s) => .ok s
  | .json (.bool b) => .ok (toString b)
  | .json (.number n) => .ok (Json.writeNumber n)
  | .float (some x) => .ok (Json.writeNumber (.float x))
  | .float none => .error .keyNotFinite
  | .natural n => .ok (toString n)
  | .failure reason => .error (.custom reason)
  | _ => .error .keyMustBeString

mutual

def toJson : Native → Except SerializationFault Json
  | .json value => .ok value
  | .float (some x) => .ok (.number (.float x))
  | .float none => .ok .null
  | .natural n => if n < 0x10000000000000000 then .ok (.ofInt n) else .error .numberOutOfRange
  | .bytes data => .ok (.array (data.map fun b => .ofInt b.toNat))
  | .unit => .ok .null
  | .present value => value.toJson
  | .variant name value => return .object [(name, ← value.toJson)]
  | .sequence items => return .array (← itemsToJson items)
  | .mapping entries => return .object (Json.mergeFields (← entriesToJson entries))
  | .failure reason => .error (.custom reason)

def itemsToJson : List Native → Except SerializationFault (List Json)
  | [] => .ok []
  | item :: rest => return (← item.toJson) :: (← itemsToJson rest)

def entriesToJson : List (Native × Native) → Except SerializationFault (List (String × Json))
  | [] => .ok []
  | (key, value) :: rest => do
    let key ← key.keyText
    let value ← value.toJson
    return (key, value) :: (← entriesToJson rest)

end

end Native
end Conform
