import FieldGraph.Graph.Direction
import FieldGraph.Value.Basic

/-!
# Queries

The meaning of a statement text. A script is a row of queries; the clauses of a query share one
set of variables.
-/
namespace FieldGraph

structure NodePattern where
  name : Option String
  label : Option String
  properties : List (String × Value)

def NodePattern.isUnconstrained (n : NodePattern) : Bool :=
  n.label.isNone && n.properties.isEmpty

structure RelationshipPattern where
  name : Option String
  edgeType : Option String
  /-- The direction as seen from the node before the relationship. -/
  direction : Direction
  deriving DecidableEq, Repr

structure Pattern where
  start : NodePattern
  hop : Option (RelationshipPattern × NodePattern)

inductive ComparisonOp where
  | equals
  | notEquals
  | contains
  deriving DecidableEq, Repr

inductive Operand where
  | literal (value : Value)
  | property (name key : String)
  | id (name : String)
  | labels (name : String)

structure Comparison where
  left : Operand
  op : ComparisonOp
  right : Operand

inductive Projection where
  | value (operand : Operand)
  | count (name : String)

/-- A column of a result: what it holds, and its name, which is its text in the statement. -/
structure ReturnItem where
  projection : Projection
  column : String

inductive Clause where
  | merge (pattern : Pattern)
  | find (pattern : Pattern) (filter : List Comparison)
  | result (items : List ReturnItem)

abbrev Query := List Clause

abbrev Script := List Query

def Clause.isMerge : Clause → Bool
  | .merge _ => true
  | _ => false

def Clause.isResult : Clause → Bool
  | .result _ => true
  | _ => false

def Script.isReadOnly (s : Script) : Bool :=
  s.all fun query => query.all fun clause => !clause.isMerge

end FieldGraph
