/-!
# Binary floating-point numbers

Numbers of 53 significant bits with exact arithmetic underneath: every operation computes a
quotient of natural numbers and rounds it once, to the nearest number and on a tie to the one
with the even mantissa.
-/
namespace FieldGraph

/-- `mantissa * 2 ^ exponent` is in its only stored form: the exponent is the least one allowed,
or all 53 bits are in use. -/
def CanonicalForm (mantissa : Nat) (exponent : Int) : Prop :=
  mantissa < 0x20000000000000 ∧ -1074 ≤ exponent ∧ exponent ≤ 971 ∧
    (exponent = -1074 ∨ 0x10000000000000 ≤ mantissa)

instance (m : Nat) (q : Int) : Decidable (CanonicalForm m q) :=
  inferInstanceAs (Decidable (_ ∧ _ ∧ _ ∧ _))

/-- A finite number, `± mantissa * 2 ^ exponent`; the sign of zero counts. -/
structure Finite64 where
  negative : Bool
  mantissa : Nat
  exponent : Int
  canonical : CanonicalForm mantissa exponent
  deriving DecidableEq, Repr

inductive Binary64 where
  | finite (x : Finite64)
  | infinite (negative : Bool)
  | nan
  deriving DecidableEq, Repr

/-- The integer nearest to `num / den`; a half goes to the even neighbour. -/
def roundHalfEven (num den : Nat) : Nat :=
  let quotient := num / den
  let remainder := num % den
  if den < 2 * remainder ∨ (2 * remainder = den ∧ quotient % 2 = 1) then quotient + 1
  else quotient

/-- Numerator and denominator of `num / (den * 2 ^ exponent)`. -/
def scaleByTwo (num den : Nat) (exponent : Int) : Nat × Nat :=
  (num * Nat.pow 2 (-exponent).toNat, den * Nat.pow 2 exponent.toNat)

/-- The exponent that leaves 53 bits before the point of the positive quotient `num / den`, but
at least `-1074`. -/
def exponentOf (num den : Nat) : Int :=
  let estimate : Int := (num.log2 : Int) - den.log2
  let (n, d) := scaleByTwo num den estimate
  max (-1074) (if n < d then estimate - 53 else estimate - 52)

namespace Finite64

def zero (negative : Bool) : Finite64 := ⟨negative, 0, -1074, by decide⟩

def isZero (x : Finite64) : Bool := x.mantissa == 0

def neg (x : Finite64) : Finite64 := { x with negative := !x.negative }

def ratio (x : Finite64) : Nat × Nat :=
  (x.mantissa * Nat.pow 2 x.exponent.toNat, Nat.pow 2 (-x.exponent).toNat)

def toInt? (x : Finite64) : Option Int :=
  let (num, den) := x.ratio
  if num % den = 0 then some (if x.negative then -(num / den : Nat) else (num / den : Nat))
  else none

end Finite64

namespace Binary64

/-- A mantissa and exponent beyond the greatest exponent stand for infinity. -/
def ofParts (negative : Bool) (mantissa : Nat) (exponent : Int) : Binary64 :=
  if h : CanonicalForm mantissa exponent then .finite ⟨negative, mantissa, exponent, h⟩
  else .infinite negative

/-- The number nearest to `± num / den`. -/
def ofRatio (negative : Bool) (num den : Nat) : Binary64 :=
  if num = 0 then .finite (.zero negative)
  else
    let exponent := exponentOf num den
    let (n, d) := scaleByTwo num den exponent
    let mantissa := roundHalfEven n d
    if mantissa = 0x20000000000000 then ofParts negative 0x10000000000000 (exponent + 1)
    else ofParts negative mantissa exponent

def ofInt (i : Int) : Binary64 := ofRatio (i < 0) i.natAbs 1

/-- The number nearest to `± digits * 10 ^ exponent`. Exponents far outside the range of finite
numbers are settled without computing the power. -/
def ofDecimal (negative : Bool) (digits : Nat) (exponent : Int) : Binary64 :=
  if digits = 0 then .finite (.zero negative)
  else if 310 < exponent then .infinite negative
  else if exponent + digits.log2 < -350 then .finite (.zero negative)
  else
    ofRatio negative (digits * Nat.pow 10 exponent.toNat) (Nat.pow 10 (-exponent).toNat)

def neg : Binary64 → Binary64
  | .finite x => .finite x.neg
  | .infinite negative => .infinite (!negative)
  | .nan => .nan

/-- Equality of values: the two zeros are equal, and not-a-number differs from itself. -/
def same : Binary64 → Binary64 → Bool
  | .finite x, .finite y => x == y || (x.isZero && y.isZero)
  | .infinite s, .infinite t => s == t
  | _, _ => false

def toInt? : Binary64 → Option Int
  | .finite x => x.toInt?
  | _ => none

end Binary64

namespace Finite64

def mul (x y : Finite64) : Binary64 :=
  Binary64.ofRatio (x.negative != y.negative) (x.ratio.1 * y.ratio.1) (x.ratio.2 * y.ratio.2)

def div (x y : Finite64) : Binary64 :=
  Binary64.ofRatio (x.negative != y.negative) (x.ratio.1 * y.ratio.2) (x.ratio.2 * y.ratio.1)

end Finite64

end FieldGraph
