import FieldGraph.Text.Quoted

/-!
# Records in diagnostics

Structured data in diagnostics is shown as a name with named fields, and lists stand between
brackets.
-/
namespace FieldGraph.Text

def listing (items : List String) : String := "[" ++ ", ".intercalate items ++ "]"

def record (name : String) (fields : List (String × String)) : String :=
  name ++ " \x7b " ++ ", ".intercalate (fields.map fun (key, value) => key ++ ": " ++ value) ++
    " \x7d"

def variant (name content : String) : String := name ++ "(" ++ content ++ ")"

end FieldGraph.Text
