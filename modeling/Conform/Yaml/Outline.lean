import Conform.Numeric.Notation
import Conform.Text.Quoted
import Conform.Yaml.Value

namespace Conform

def YamlNumber.text : YamlNumber → String
  | .finite (.int n _) => toString n
  | .finite (.float x) => x.compact ""
  | .infinity negative => if negative then "-.inf" else ".inf"
  | .nan => ".nan"

namespace Yaml

mutual

def outline : Yaml → String
  | .null => "Null"
  | .bool b => s!"Bool({b})"
  | .number n => s!"Number({n.text})"
  | .string s => s!"String({Text.quoted s})"
  | .sequence items => "Sequence [" ++ ", ".intercalate (outlineItems items) ++ "]"
  | .mapping entries => "Mapping \x7b" ++ ", ".intercalate (outlineEntries entries) ++ "\x7d"
  | .tagged tag value => "TaggedValue \x7b tag: !" ++ tag ++ ", value: " ++ outline value ++ " \x7d"

def outlineItems : List Yaml → List String
  | [] => []
  | item :: rest => outline item :: outlineItems rest

def outlineEntries : List (Yaml × Yaml) → List String
  | [] => []
  | (key, value) :: rest => (outlineKey key ++ ": " ++ outline value) :: outlineEntries rest

def outlineKey : Yaml → String
  | .bool b => toString b
  | .number n => n.text
  | .string s => Text.quoted s
  | key => outline key

end

end Yaml
end Conform
