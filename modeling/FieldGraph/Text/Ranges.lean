/-!
# Tables of code points

A character property is given as a list of closed ranges of code points, in ascending order.
-/
namespace FieldGraph.Text

/-- Whether `n` lies in one of the ranges. The search ends at the first range above `n`. -/
def covers : List (Nat × Nat) → Nat → Bool
  | [], _ => false
  | (low, high) :: rest, n => low ≤ n && (n ≤ high || covers rest n)

end FieldGraph.Text
