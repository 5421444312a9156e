import FieldGraph.Number.Decimal

/-!
# How a number is written

A layout fixes what the digits leave open: which numbers are written without an exponent,
whether a whole number keeps a point, whether an exponent that is not negative has a sign, and
which of two equally near decimals is taken.
-/
namespace FieldGraph

structure Layout where
  /-- Whether a number whose first digit stands `k` places before the point has no exponent. -/
  positional : Int → Bool
  /-- Whether a whole number ends in `.0`. -/
  keepsPoint : Bool
  /-- Whether an exponent that is not negative has a plus sign. -/
  signsExponent : Bool
  tie : Tie

namespace Layout

def pointText (l : Layout) : List Char := if l.keepsPoint then ['.', '0'] else []

/-- Digits with the point after the first `point` of them, padded with zeros. -/
def placePoint (l : Layout) (digits : List Char) (point : Int) : List Char :=
  if point ≤ 0 then ['0', '.'] ++ List.replicate (-point).toNat '0' ++ digits
  else if digits.length ≤ point.toNat then
    digits ++ List.replicate (point.toNat - digits.length) '0' ++ l.pointText
  else digits.take point.toNat ++ '.' :: digits.drop point.toNat

def intText (i : Int) : List Char :=
  if i < 0 then '-' :: Nat.toDigits 10 i.natAbs else Nat.toDigits 10 i.natAbs

def exponentText (l : Layout) (exponent : Int) : List Char :=
  if l.signsExponent && 0 ≤ exponent then '+' :: intText exponent else intText exponent

/-- One digit, the others after a point, and the exponent. -/
def scientific (l : Layout) (digits : List Char) (point : Int) : List Char :=
  match digits with
  | [] => []
  | [d] => d :: 'e' :: l.exponentText (point - 1)
  | d :: rest => d :: '.' :: rest ++ 'e' :: l.exponentText (point - 1)

def significant (d : Decimal) : List Char :=
  ((Nat.toDigits 10 d.digits).reverse.dropWhile (· == '0')).reverse

def magnitude (l : Layout) (x : Finite64) : List Char :=
  if x.isZero then '0' :: l.pointText
  else
    let d := Decimal.shortest l.tie x
    let point := Decimal.length d.digits + d.exponent
    if l.positional point then l.placePoint (significant d) point
    else l.scientific (significant d) point

def finite (l : Layout) (x : Finite64) : List Char :=
  if x.negative then '-' :: l.magnitude x else l.magnitude x

def text (l : Layout) : Binary64 → String
  | .finite x => String.ofList (l.finite x)
  | .infinite false => "inf"
  | .infinite true => "-inf"
  | .nan => "NaN"

/-- Literals have a point or an exponent, and no exponent from `0.0001` up to `10 ^ 16`. -/
def literal : Layout := ⟨fun k => -3 ≤ k && k ≤ 16, true, false, .up⟩

/-- Plain text has no exponent, and no point after a whole number. -/
def plain : Layout := ⟨fun _ => true, false, false, .up⟩

/-- JSON numbers have a point or an exponent with its sign, and no exponent from `0.00001` up to
`10 ^ 16`. -/
def json : Layout := ⟨fun k => -4 ≤ k && k ≤ 16, true, true, .even⟩

end Layout

end FieldGraph
