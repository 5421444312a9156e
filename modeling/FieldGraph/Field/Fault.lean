import FieldGraph.Field.Basic
import FieldGraph.Field.Resolver
import FieldGraph.Json.Printer

/-!
# Faults of field queries

Why a field cannot be resolved although the store has not failed.
-/
namespace FieldGraph

inductive FieldFault where
  | keywordsNotText (got : Json)
  | needsSource (resolver : Resolver)
  | unknownType (typeName : String)
  | unknownField (field typeName : String)
  | fieldOfUnion (field typeName : String)
  | unresolvedUnion (typeName : String) (node : NodeRef)
  | shapeMismatch (field : String) (expected : FieldType) (got : Resolved)
  | missingSelection (field typeName : String)

/-- A name between double quotes, without escapes. -/
def inQuotes (s : String) : String := "\"" ++ s ++ "\""

def FieldFault.message : FieldFault → String
  | .keywordsNotText got => "Argument \"keywords\" must be a string, got " ++ got.render
  | .needsSource resolver => resolver.inspect ++ " needs a source reference"
  | .unknownType typeName => "Unknown type " ++ inQuotes typeName
  | .unknownField field typeName =>
    "Cannot query field " ++ inQuotes field ++ " on type " ++ inQuotes typeName
  | .fieldOfUnion field typeName =>
    "Cannot query field " ++ inQuotes field ++ " on union " ++ inQuotes typeName ++
      " without a concrete type"
  | .unresolvedUnion typeName node =>
    "Abstract type " ++ inQuotes typeName ++ " could not resolve node " ++ natText node.id ++
      " (" ++ Text.quotedOption node.typeName ++ ")"
  | .shapeMismatch field expected got =>
    "Field " ++ inQuotes field ++ " expected " ++ expected.inspect ++ " but resolved " ++
      got.inspect
  | .missingSelection field typeName =>
    "Field " ++ inQuotes field ++ " of type " ++ inQuotes typeName ++
      " must have a selection of subfields"

end FieldGraph
