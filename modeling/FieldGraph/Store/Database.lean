import FieldGraph.Duration
import FieldGraph.Store.Basic

/-!
# The database boundary

A store behind a boundary that keeps its failures to itself. The caller learns that a statement
failed, and nothing of why. With a timeout, a statement without an answer fails as well. There is no
time here: a statement without an answer is one that has none within the timeout, however long that
is.
-/
namespace FieldGraph

structure Database (σ : Type) where
  inner : Store σ
  timeout : Option Duration

namespace Database

/-- The reply that crosses the boundary. Of the limit it matters only that there is one, since a
missing answer is one that did not come within it. -/
def guard (timeout : Option Duration) : Reply → Reply
  | .answered table => .answered table
  | .failed _ => .failed .database
  | .unanswered => if timeout.isSome then .failed .database else .unanswered

def store (d : Database σ) : Store σ where
  submit statement state :=
    let (reply, next) := d.inner.submit statement state
    (guard d.timeout reply, next)

def inspect (d : Database σ) : String :=
  let timeout := match d.timeout with
    | some limit => Text.variant "Some" limit.text
    | none => "None"
  "Database \x7b timeout: " ++ timeout ++ ", .. \x7d"

end Database

end FieldGraph
