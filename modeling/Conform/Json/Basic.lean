import Conform.Json.Number

namespace Conform

inductive Json where
  | null
  | bool (b : Bool)
  | number (n : Number)
  | string (s : String)
  | array (items : List Json)
  | object (entries : List (String × Json))

namespace Json

def ofInt (n : Int) : Json := .number (.ofInt n)

def strings (texts : List String) : Json := .array (texts.map .string)

/-- The value under a key, the first one if the key is repeated. -/
def field? (entries : List (String × α)) (key : String) : Option α :=
  (entries.find? (·.1 == key)).map (·.2)

/-- Sets the value under a key: in place where the key stands already, and else at the end. -/
def setField (key : String) (value : α) : List (String × α) → List (String × α)
  | [] => [(key, value)]
  | (k, v) :: rest => if k == key then (k, value) :: rest else (k, v) :: setField key value rest

def mergeFields (entries : List (String × α)) : List (String × α) :=
  entries.foldl (fun done (key, value) => setField key value done) []

mutual

/-- A repeated key keeps its first position and takes its last value, at every level. -/
def merged : Json → Json
  | .array items => .array (mergedItems items)
  | .object entries => .object (mergeFields (mergedEntries entries))
  | other => other

def mergedItems : List Json → List Json
  | [] => []
  | item :: rest => item.merged :: mergedItems rest

def mergedEntries : List (String × Json) → List (String × Json)
  | [] => []
  | (key, value) :: rest => (key, value.merged) :: mergedEntries rest

end

mutual

def depth : Json → Nat
  | .array items => itemsDepth items + 1
  | .object entries => entriesDepth entries + 1
  | _ => 0

def itemsDepth : List Json → Nat
  | [] => 0
  | item :: rest => max item.depth (itemsDepth rest)

def entriesDepth : List (String × Json) → Nat
  | [] => 0
  | (_, value) :: rest => max value.depth (entriesDepth rest)

end

end Json
end Conform
