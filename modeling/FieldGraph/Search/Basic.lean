import FieldGraph.Number.Numeral
import FieldGraph.Search.Token
import FieldGraph.Value.Text

/-!
# Searches

The conditions that a search text puts on nodes, and the clause of a statement that states them.
-/
namespace FieldGraph

def idKey : String := "_id"

inductive SearchTarget where
  | nodeId
  | property (key : String)
  deriving DecidableEq, Repr

def SearchTarget.text : SearchTarget → String
  | .nodeId => "id(n)"
  | .property key => "n.`" ++ key ++ "`"

inductive SearchComparator where
  | equals
  | contains
  deriving DecidableEq, Repr

def SearchComparator.text : SearchComparator → String
  | .equals => "="
  | .contains => "CONTAINS"

inductive SearchValue where
  | int (i : Int64)
  | string (s : String)
  deriving DecidableEq, Repr

def SearchValue.text : SearchValue → String
  | .int i => intText i.toInt
  | .string s => quoteLiteral s

structure SearchPredicate where
  target : SearchTarget
  comparator : SearchComparator
  value : SearchValue
  deriving DecidableEq, Repr

def SearchPredicate.text (p : SearchPredicate) : String :=
  p.target.text ++ " " ++ p.comparator.text ++ " " ++ p.value.text

/-- A bare value that spells an integer is one; a quoted value never is. -/
def RawValue.value : RawValue → SearchValue
  | .quoted text => .string (String.ofList text)
  | .bare text =>
    match Numeral.int64? text with
    | some i => .int i
    | none => .string (String.ofList text)

/-- The condition of a filter. Keys are freed of backticks, which would end the name. -/
def SearchToken.predicate (t : SearchToken) : SearchPredicate :=
  if String.ofList t.key = idKey then ⟨.nodeId, .equals, t.value.value⟩
  else ⟨.property (String.ofList (t.key.filter (· != '\x60'))), .contains, t.value.value⟩

structure Search where
  freeText : String
  predicates : List SearchPredicate
  deriving DecidableEq, Repr

namespace Search

/-- Reads a search text. Every text is one; what is neither a filter nor before one on its line
is dropped. -/
def parse (text : String) : Search :=
  let tokens := searchTokens text.toList
  ⟨String.ofList (tokens.flatMap SearchToken.text), tokens.map SearchToken.predicate⟩

def isEmpty (s : Search) : Bool := s.predicates.isEmpty

def clause (s : Search) : String :=
  if s.isEmpty then ""
  else "WHERE " ++ " AND ".intercalate (s.predicates.map SearchPredicate.text)

end Search

end FieldGraph
