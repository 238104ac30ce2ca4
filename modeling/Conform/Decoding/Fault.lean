import Conform.Json.Writer
import Conform.Schema.Fault
import Conform.Text.Quoted
import Conform.Yaml.Value

namespace Conform

inductive DecodeFault where
  | missingField (name : String)
  | duplicateField (name : String)
  | invalidType (found : Yaml) (expected : String)
  | invalidValue (found : Yaml) (expected : String)
  | invalidLength (length : Nat) (expected : String)
  | unknownVariant (name : String) (known : List String)
  | noVariant (type : String)
  | schema (fault : SchemaFault)

namespace DecodeFault

def describe : Yaml → String
  | .null => "null"
  | .bool b => s!"boolean `{b}`"
  | .number (.finite (.int n _)) => s!"integer `{n}`"
  | .number (.finite (.float x)) => s!"floating point `{Json.writeNumber (.float x)}`"
  | .number (.infinity false) => "floating point `inf`"
  | .number (.infinity true) => "floating point `-inf`"
  | .number .nan => "floating point `NaN`"
  | .string s => "string " ++ Text.quoted s
  | .sequence _ => "sequence"
  | .mapping _ => "map"
  | .tagged _ _ => "enum"

def message : DecodeFault → String
  | .missingField name => s!"missing field `{name}`"
  | .duplicateField name => s!"duplicate field `{name}`"
  | .invalidType found expected => s!"invalid type: {describe found}, expected {expected}"
  | .invalidValue found expected => s!"invalid value: {describe found}, expected {expected}"
  | .invalidLength length expected => s!"invalid length {length}, expected {expected}"
  | .unknownVariant name known =>
    let list := ", ".intercalate (known.map fun v => s!"`{v}`")
    s!"unknown variant `{name}`, expected one of {list}"
  | .noVariant type => s!"data did not match any variant of untagged enum {type}"
  | .schema fault => fault.message

end DecodeFault

abbrev Decoder (α : Type) := Yaml → Except DecodeFault α

end Conform
