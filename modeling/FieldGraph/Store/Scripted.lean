import FieldGraph.Statement.Filter
import FieldGraph.Store.Basic

/-!
# Scripted stores

Stores whose replies are laid down beforehand, and stores that refuse certain statements.
-/
namespace FieldGraph

/-- Gives the replies of a list one after another, and empty tables after the last. -/
def scriptedStore : Store (List Reply) where
  submit _ := fun
    | [] => (.answered .empty, [])
    | reply :: rest => (reply, rest)

/-- Refuses every statement in which the given text occurs, without passing it on. -/
def Store.refusing (s : Store σ) (text message : String) : Store σ where
  submit statement state :=
    if occursIn text.toList statement.toList then (.failed (.store (.reported message)), state)
    else s.submit statement state

end FieldGraph
