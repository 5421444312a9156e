import FieldGraph.Text.Alphabetic
import FieldGraph.Text.Numeric

/-!
# Characters of identifiers

An identifier starts with an alphabetic character or an underscore and goes on with alphabetic
and numeric characters and underscores.
-/
namespace FieldGraph.Text

def startsIdentifier (c : Char) : Bool := isAlphabetic c || c == '_'

def continuesIdentifier (c : Char) : Bool := isAlphabetic c || isNumeric c || c == '_'

end FieldGraph.Text
