import Conform.Yaml.Value

/-!
When two YAML values are the same key. The order of a mapping's entries does not count, an integer
never equals a binary number, and not-a-number equals itself.
-/

namespace Conform

def YamlNumber.same : YamlNumber → YamlNumber → Bool
  | .finite (.int m _), .finite (.int n _) => m == n
  | .finite (.float x), .finite (.float y) => x.numericEq y
  | .infinity a, .infinity b => a == b
  | .nan, .nan => true
  | _, _ => false

namespace Yaml

mutual

def same : Yaml → Yaml → Bool
  | .null, .null => true
  | .bool a, .bool b => a == b
  | .number a, .number b => a.same b
  | .string a, .string b => a == b
  | .sequence a, .sequence b => sameItems a b
  | .mapping a, .mapping b => a.length == b.length && within a b
  | .tagged s a, .tagged t b => s == t && same a b
  | _, _ => false

def sameItems : List Yaml → List Yaml → Bool
  | [], [] => true
  | a :: as, b :: bs => same a b && sameItems as bs
  | _, _ => false

def within : List (Yaml × Yaml) → List (Yaml × Yaml) → Bool
  | [], _ => true
  | (key, value) :: rest, others =>
    (others.any fun other => same key other.1 && same value other.2) && within rest others

end

def haveDistinctKeys : List (Yaml × Yaml) → Bool
  | [] => true
  | (key, _) :: rest => (rest.all fun other => !same key other.1) && haveDistinctKeys rest

end Yaml
end Conform
