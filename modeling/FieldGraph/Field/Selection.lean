import FieldGraph.Json.Basic

/-!
# Selections

The fields that a query asks for, each with its arguments and the fields of what it yields.
-/
namespace FieldGraph

structure Selection where
  name : String
  shownAs : Option String
  arguments : List (String × Json)
  selections : List Selection

def Selection.responseKey (s : Selection) : String := s.shownAs.getD s.name

end FieldGraph
