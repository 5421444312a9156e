import FieldGraph.Text.Uppercase

/-!
# Names from field names

The label of a node and the type of an edge come from the field that introduced the node.
-/
namespace FieldGraph

/-- A name without one `s` at its end. -/
def singular (name : List Char) : List Char :=
  match name.reverse with
  | 's' :: rest => rest.reverse
  | _ => name

def singularize (name : String) : String := String.ofList (singular name.toList)

def toLabel (name : String) : String :=
  match singular name.toList with
  | [] => ""
  | c :: rest => String.ofList (Text.toUppercase c ++ rest)

def toEdgeType (name : String) : String := singularize name

end FieldGraph
