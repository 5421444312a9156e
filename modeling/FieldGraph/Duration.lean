import FieldGraph.Value.Text

/-!
# Durations

Lengths of time in whole seconds and nanoseconds.
-/
namespace FieldGraph

structure Duration where
  seconds : UInt64
  nanoseconds : Nat
  lt_second : nanoseconds < 1000000000 := by decide
  deriving DecidableEq, Repr

namespace Duration

def ofSeconds (n : UInt64) : Duration := ⟨n, 0, by decide⟩

def ofMilliseconds (n : UInt64) : Duration :=
  ⟨n / 1000, n.toNat % 1000 * 1000000, by omega⟩

def milliseconds (d : Duration) : Nat := d.seconds.toNat * 1000 + d.nanoseconds / 1000000

/-- The digits of a fraction of `width` places, with its point, without zeros at the end. -/
def fractionText (fraction width : Nat) : String :=
  let digits := Nat.toDigits 10 (Nat.pow 10 width + fraction)
  match ((digits.drop 1).reverse.dropWhile (· == '0')).reverse with
  | [] => ""
  | digits => String.ofList ('.' :: digits)

/-- The text of a duration in the largest unit of which it holds at least one. -/
def text (d : Duration) : String :=
  if 0 < d.seconds then natText d.seconds.toNat ++ fractionText d.nanoseconds 9 ++ "s"
  else if 1000000 ≤ d.nanoseconds then
    natText (d.nanoseconds / 1000000) ++ fractionText (d.nanoseconds % 1000000) 6 ++ "ms"
  else if 1000 ≤ d.nanoseconds then
    natText (d.nanoseconds / 1000) ++ fractionText (d.nanoseconds % 1000) 3 ++ "µs"
  else natText d.nanoseconds ++ "ns"

end Duration

end FieldGraph
