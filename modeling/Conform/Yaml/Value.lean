import Conform.Json.Basic

namespace Conform

inductive YamlNumber where
  | finite (n : Number)
  | infinity (negative : Bool)
  | nan
deriving DecidableEq

inductive Yaml where
  | null
  | bool (b : Bool)
  | number (n : YamlNumber)
  | string (s : String)
  | sequence (items : List Yaml)
  | mapping (entries : List (Yaml × Yaml))
  | tagged (tag : String) (value : Yaml)

namespace Yaml

mutual

/-- A JSON value is a YAML value whose keys are strings. -/
def ofJson : Json → Yaml
  | .null => .null
  | .bool b => .bool b
  | .number n => .number (.finite n)
  | .string s => .string s
  | .array items => .sequence (ofItems items)
  | .object entries => .mapping (ofEntries entries)

def ofItems : List Json → List Yaml
  | [] => []
  | item :: rest => ofJson item :: ofItems rest

def ofEntries : List (String × Json) → List (Yaml × Yaml)
  | [] => []
  | (key, value) :: rest => (.string key, ofJson value) :: ofEntries rest

end

end Yaml
end Conform
