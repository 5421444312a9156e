import FieldGraph.Number.Layout
import FieldGraph.Text.Record
import FieldGraph.Value.Basic

/-!
# The texts of a value

The plain text, in which strings stand as they are, the literal, which a statement can hold, and
the form with the kind of each part that diagnostics show.
-/
namespace FieldGraph

/-- A character between single quotes; a quote or a backslash has a backslash before it. -/
def literalChar (c : Char) : List Char := if c == '\'' || c == '\\' then ['\\', c] else [c]

def quoteLiteral (s : String) : String :=
  String.ofList ('\'' :: s.toList.flatMap literalChar ++ ['\''])

def intText (i : Int) : String := String.ofList (Layout.intText i)

def natText (n : Nat) : String := String.ofList (Nat.toDigits 10 n)

namespace Value

mutual

def text : Value → String
  | .null => "null"
  | .bool true => "true"
  | .bool false => "false"
  | .int i => intText i.toInt
  | .float x => Layout.plain.text x
  | .string s => s
  | .list items => Text.listing (texts items)

def texts : List Value → List String
  | [] => []
  | item :: rest => text item :: texts rest

end

mutual

def literal : Value → String
  | .string s => quoteLiteral s
  | .float x => Layout.literal.text x
  | .list items => Text.listing (literals items)
  | .null => "null"
  | .bool true => "true"
  | .bool false => "false"
  | .int i => intText i.toInt

def literals : List Value → List String
  | [] => []
  | item :: rest => literal item :: literals rest

end

mutual

def inspect : Value → String
  | .null => "Null"
  | .bool b => Text.variant "Bool" (toString b)
  | .int i => Text.variant "Int" (intText i.toInt)
  | .float x => Text.variant "Float" (Layout.literal.text x)
  | .string s => Text.variant "String" (Text.quoted s)
  | .list items => Text.variant "List" (Text.listing (inspectAll items))

def inspectAll : List Value → List String
  | [] => []
  | item :: rest => inspect item :: inspectAll rest

end

end Value

end FieldGraph
