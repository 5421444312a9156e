import FieldGraph.Number.Binary64

/-!
# Shortest decimals

The decimal that stands for a finite number is the one of fewest digits that reads back as it,
and among those the nearest. Every candidate is checked by reading it.
-/
namespace FieldGraph

/-- `digits * 10 ^ exponent`. -/
structure Decimal where
  digits : Nat
  exponent : Int
  deriving DecidableEq, Repr

inductive Tie where
  | up
  | even
  deriving DecidableEq, Repr

namespace Decimal

def length (n : Nat) : Nat := (Nat.toDigits 10 n).length

/-- The position of the point before the first digit of the positive quotient `num / den`: the
least `k` with `num / den < 10 ^ k`. -/
def pointOf (num den : Nat) : Int :=
  if den ≤ num then length (num / den)
  else if den ≤ 10 * num then 0
  else 1 - (length ((den + num - 1) / num - 1) : Int)

/-- Numerator and denominator of `num / (den * 10 ^ exponent)`. -/
def scaleByTen (num den : Nat) (exponent : Int) : Nat × Nat :=
  (num * Nat.pow 10 (-exponent).toNat, den * Nat.pow 10 exponent.toNat)

/-- Whether the decimal reads back as the magnitude of `x`. -/
def standsFor (x : Finite64) (d : Decimal) : Bool :=
  Binary64.ofDecimal x.negative d.digits d.exponent == .finite x

/-- The nearer of two neighbouring decimals `low` and `low + 1` to the quotient `n / d`. -/
def nearer (tie : Tie) (n d low : Nat) : Nat :=
  if 2 * n < (2 * low + 1) * d then low
  else if (2 * low + 1) * d < 2 * n then low + 1
  else match tie with
    | .up => low + 1
    | .even => if low % 2 = 0 then low else low + 1

/-- The decimal on the grid of `10 ^ exponent` that stands for `x`, if there is one. -/
def onGrid? (tie : Tie) (x : Finite64) (exponent : Int) : Option Decimal :=
  let (n, d) := scaleByTen x.ratio.1 x.ratio.2 exponent
  let low := n / d
  match standsFor x ⟨low, exponent⟩, standsFor x ⟨low + 1, exponent⟩ with
  | true, true => some ⟨nearer tie n d low, exponent⟩
  | true, false => some ⟨low, exponent⟩
  | false, true => some ⟨low + 1, exponent⟩
  | false, false => none

def exact (x : Finite64) : Decimal :=
  if 0 ≤ x.exponent then ⟨x.mantissa * Nat.pow 2 x.exponent.toNat, 0⟩
  else ⟨x.mantissa * Nat.pow 5 (-x.exponent).toNat, x.exponent⟩

/-- The shortest decimal that stands for `x`: the coarsest grid that holds one, from one digit to
seventeen. -/
def shortest (tie : Tie) (x : Finite64) : Decimal :=
  let point := pointOf x.ratio.1 x.ratio.2
  match (List.range 17).findSome? fun n : Nat => onGrid? tie x (point - (n + 1)) with
  | some d => d
  | none => exact x

end Decimal

end FieldGraph
