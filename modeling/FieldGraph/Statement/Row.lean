import FieldGraph.Error

/-!
# Rows

A row binds variables to nodes and edges. A later binding of a variable hides an earlier one.
-/
namespace FieldGraph

inductive Binding where
  | node (id : Nat)
  | edge (id : Nat)
  deriving DecidableEq, Repr

abbrev Row := List (String × Binding)

abbrev Evaluation := Except InvalidOperation

def Evaluation.fault (fault : EvaluationFault) : Evaluation α := .error (.evaluation fault)

namespace Row

def bind (row : Row) (name : Option String) (binding : Binding) : Row :=
  match name with
  | some name => (name, binding) :: row
  | none => row

def get? (row : Row) (name : String) : Option Binding := List.lookup name row

def get (row : Row) (name : String) : Evaluation Binding :=
  match row.get? name with
  | some binding => .ok binding
  | none => .fault (.undefinedVariable name)

end Row

/-- The results of all items one after another, up to the first fault. -/
def collect (f : α → Except ε (List β)) : List α → Except ε (List β)
  | [] => .ok []
  | a :: rest => do
    let found ← f a
    let others ← collect f rest
    return found ++ others

end FieldGraph
