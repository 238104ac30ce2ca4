import Conform.Schema.Basic

namespace Conform

inductive BuildFault where
  | unknownNode (id : NodeId)
  /-- The slot of a node was reserved and never filled. -/
  | unresolved (id : NodeId)
  /-- A union or intersection reaches itself through unions and intersections only. -/
  | combinatorCycle (id : NodeId)
deriving DecidableEq

def BuildFault.message : BuildFault → String
  | .unknownNode id => s!"schema references unknown node {id}"
  | .unresolved id => s!"node {id} was never resolved during compilation"
  | .combinatorCycle id =>
    s!"node {id} contains itself through unions and intersections only"

end Conform
