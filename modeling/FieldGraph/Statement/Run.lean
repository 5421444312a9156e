import FieldGraph.Statement.Create
import FieldGraph.Statement.Projection

/-!
# Running queries

A query starts with one row without bindings. Each clause turns the rows into others: a find
extends them, a merge extends them and creates what is missing, and a result ends the query with
a table. A query that fails has no graph to show, so nothing of it remains.
-/
namespace FieldGraph

inductive Access where
  | read
  | write
  deriving DecidableEq, Repr

structure QueryTable where
  columns : List String
  rows : List (List Value)

def QueryTable.empty : QueryTable := ⟨[], []⟩

def findRows (g : Graph) (p : Pattern) (filter : List Comparison) (row : Row) :
    Evaluation (List Row) := do
  collect (fun r => do return if ← passesAll g r filter then [r] else []) (← p.matches g row)

def mergeRow (access : Access) (p : Pattern) (d : Draft) (row : Row) :
    Evaluation (Draft × List Row) := do
  match ← p.matches d.graph row with
  | [] =>
    match access with
    | .read => .fault .mergeNeedsWriteAccess
    | .write =>
      let (d, row) ← p.create d row
      return (d, [row])
  | found => return (d, found)

/-- The rows that a merge makes of all rows; what it creates for one is there for the next. -/
def mergeRows (access : Access) (p : Pattern) (d : Draft) :
    List Row → Evaluation (Draft × List Row)
  | [] => .ok (d, [])
  | row :: rest => do
    let (d, found) ← mergeRow access p d row
    let (d, others) ← mergeRows access p d rest
    return (d, found ++ others)

structure Progress where
  draft : Draft
  rows : List Row
  table : QueryTable

def Clause.run (access : Access) (s : Progress) : Clause → Evaluation Progress
  | .find p filter => do
    let rows ← collect (findRows s.draft.graph p filter) s.rows
    return { s with rows }
  | .merge p => do
    let (draft, rows) ← mergeRows access p s.draft s.rows
    return { s with draft, rows }
  | .result items => do
    let rows ← project s.draft.graph items s.rows
    return { s with table := ⟨items.map ReturnItem.column, rows⟩ }

def runClauses (access : Access) (s : Progress) : List Clause → Evaluation Progress
  | [] => .ok s
  | clause :: rest => do
    let s ← clause.run access s
    runClauses access s rest

/-- Whether a result clause, if there is one, is the last clause. -/
def resultIsLast : List Clause → Bool
  | [] => true
  | clause :: rest => if clause.isResult then rest.isEmpty else resultIsLast rest

def Query.run (access : Access) (g : Graph) (query : Query) : Evaluation (Draft × QueryTable) := do
  if resultIsLast query then
    let s ← runClauses access ⟨⟨g, .zero⟩, [[]], .empty⟩ query
    return (s.draft, s.table)
  else .fault .returnNotLast

def runQueries (access : Access) (d : Draft) (table : QueryTable) :
    List Query → Evaluation (Draft × QueryTable)
  | [] => .ok (d, table)
  | query :: rest => do
    let (next, table) ← Query.run access d.graph query
    runQueries access ⟨next.graph, d.counters.add next.counters⟩ table rest

def Script.run (access : Access) (g : Graph) (script : Script) : Evaluation (Draft × QueryTable) :=
  runQueries access ⟨g, .zero⟩ .empty script

end FieldGraph
