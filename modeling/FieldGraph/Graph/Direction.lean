/-!
# Directions

The way a traversal goes along edges, seen from the node it starts at.
-/
namespace FieldGraph

inductive Direction where
  | outgoing
  | incoming
  | both
  deriving DecidableEq, Repr

namespace Direction

def leftArrow : Direction → String
  | .incoming => "<"
  | .outgoing => ""
  | .both => ""

def rightArrow : Direction → String
  | .outgoing => ">"
  | .incoming => ""
  | .both => ""

def name : Direction → String
  | .outgoing => "Outgoing"
  | .incoming => "Incoming"
  | .both => "Both"

end Direction

end FieldGraph
