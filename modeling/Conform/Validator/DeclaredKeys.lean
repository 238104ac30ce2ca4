import Conform.Schema.Unvisited

namespace Conform.Schema

def addKeys (keys : List String) (properties : List (String × Property)) : List String :=
  properties.foldl (fun keys (key, _) => if key ∈ keys then keys else keys ++ [key]) keys

/-- Goes through the members that wait, depth first, entering no union or intersection twice. -/
def collectKeys (schema : Schema) (keys : List String) (entered : List NodeId) :
    List NodeId → List String
  | [] => keys
  | member :: waiting =>
    match _ : schema.node? member with
    | some (.object _ properties) => schema.collectKeys (addKeys keys properties) entered waiting
    | some (.union members) | some (.intersection members) =>
      if _ : member ∈ entered then schema.collectKeys keys entered waiting
      else schema.collectKeys keys (member :: entered) (members ++ waiting)
    | _ => schema.collectKeys keys entered waiting
termination_by waiting => (schema.unvisited entered, waiting.length)
decreasing_by
  all_goals
    first
    | exact Prod.Lex.right _ (Nat.lt_succ_self _)
    | exact Prod.Lex.left _ _ (unvisited_cons_lt ‹_› ‹_›)

/-- The keys of the objects below an intersection, in the order in which they are first declared. -/
def declaredKeys (schema : Schema) (id : NodeId) (members : List NodeId) : List String :=
  schema.collectKeys [] [id] members

end Conform.Schema
