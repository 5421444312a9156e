import FieldGraph.Field.Fault
import FieldGraph.Graph.Basic
import FieldGraph.Statement.Fault

/-!
# Errors

Every way in which reading a document, running a statement or resolving a field can fail, and the
text that reports it.
-/
namespace FieldGraph

inductive NameRole where
  | propertyKey
  | label
  | relationshipType
  deriving DecidableEq, Repr

def NameRole.text : NameRole → String
  | .propertyKey => "property key"
  | .label => "label"
  | .relationshipType => "relationship type"

inductive DocumentFault where
  /-- The root is neither an object nor an array but of the given kind. -/
  | scalarRoot (kind : String)
  | badName (name : String) (role : NameRole)
  deriving DecidableEq, Repr

def DocumentFault.message : DocumentFault → String
  | .scalarRoot kind => "root must be an object or array, got " ++ kind
  | .badName name role => "'" ++ name ++ "' cannot be used as a " ++ role.text

def countStatement : String := "MATCH (n) RETURN count(n)"

/-- What went wrong in a store. -/
inductive StoreFault where
  | reported (message : String)
  | noCount
  /-- Stands for a wait without end: a caller without a limit is never told of it. -/
  | noAnswer
  deriving DecidableEq, Repr

def StoreFault.message : StoreFault → String
  | .reported message => message
  | .noCount => "'" ++ countStatement ++ "' returned no count"
  | .noAnswer => "no answer"

/-- An operation that the graph or the fields of a schema do not allow. -/
inductive InvalidOperation where
  | missingNode (m : MissingNode)
  | evaluation (fault : EvaluationFault)
  | field (fault : FieldFault)
  /-- In the words of a store that refuses an operation for reasons of its own. -/
  | reported (message : String)

def InvalidOperation.message : InvalidOperation → String
  | .missingNode m => "node " ++ natText m.id ++ " does not exist"
  | .evaluation fault => fault.message
  | .field fault => fault.message
  | .reported message => message

inductive FileFault where
  | notFound
  | notText
  deriving DecidableEq, Repr

def FileFault.message : FileFault → String
  | .notFound => "No such file or directory (os error 2)"
  | .notText => "stream did not contain valid UTF-8"

inductive ContentFault where
  | notJson (path : String)
  | notConfig (path : String)
  deriving DecidableEq, Repr

def ContentFault.message : ContentFault → String
  | .notJson path => "invalid JSON in " ++ path
  | .notConfig path => "invalid config " ++ path

inductive GraphError where
  | malformedDocument (fault : DocumentFault)
  | store (fault : StoreFault)
  /-- A failure of the store whose details are kept from the caller. -/
  | database
  | statement (error : SyntaxError)
  | invalidOperation (cause : InvalidOperation)
  | file (path : String) (fault : FileFault)
  | content (fault : ContentFault)

def GraphError.message : GraphError → String
  | .malformedDocument fault => "Malformed document: " ++ fault.message
  | .store fault => "Store error: " ++ fault.message
  | .database => "Database error occurred. See server logs."
  | .statement error =>
    "Invalid statement at offset " ++ natText error.position ++ ": " ++ error.fault.message
  | .invalidOperation cause => "Invalid operation: " ++ cause.message
  | .file path fault => "I/O error on " ++ path ++ ": " ++ fault.message
  | .content fault => "Serialization error: " ++ fault.message

end FieldGraph
