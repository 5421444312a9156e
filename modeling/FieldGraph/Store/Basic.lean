import FieldGraph.Error

/-!
# Stores

A store takes statement texts one at a time. It answers with a table or with an error, or it does
not answer at all; what it holds is its state.
-/
namespace FieldGraph

structure Table where
  columns : List String
  rows : List (List Value)
  stats : List String

namespace Table

def empty : Table := ⟨[], [], []⟩

def firstValue? (t : Table) : Option Value := t.rows.head?.bind List.head?

def firstColumn (t : Table) : List Value := t.rows.filterMap List.head?

end Table

inductive Reply where
  | answered (table : Table)
  | failed (error : GraphError)
  /-- There is no answer within the limit of the caller, or ever if there is no limit. -/
  | unanswered

structure Store (σ : Type) where
  submit : String → σ → Reply × σ

/-- Work on a store that may fail; what was done to the store before a failure remains. -/
abbrev StoreM (σ : Type) := ExceptT GraphError (StateM σ)

namespace Store

/-- Runs a statement. A store that does not answer has failed here, so that all work has an outcome;
a caller without a limit would wait instead. -/
def execute (s : Store σ) (statement : String) : StoreM σ Table := fun state =>
  match s.submit statement state with
  | (.answered table, next) => (.ok table, next)
  | (.failed error, next) => (.error error, next)
  | (.unanswered, next) => (.error (.store .noAnswer), next)

def countOf? (t : Table) : Option Nat := do
  let value ← t.firstValue?
  let n ← value.int?
  if 0 ≤ n.toInt then some n.toInt.toNat else none

def countNodes (s : Store σ) : StoreM σ Nat := do
  let table ← s.execute countStatement
  match countOf? table with
  | some n => return n
  | none => throw (.store .noCount)

def recording (s : Store σ) : Store (σ × List String) where
  submit statement := fun (state, issued) =>
    let (reply, next) := s.submit statement state
    (reply, next, issued ++ [statement])

end Store

end FieldGraph
