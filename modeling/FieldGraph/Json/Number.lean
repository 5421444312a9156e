import FieldGraph.Json.Basic
import FieldGraph.Number.Numeral

/-!
# The value of a JSON number

An integer that fits 64 bits is kept as it is. Every other number is a significand of 64 bits
times a power of ten: leading digits are taken while they fit, and the power is applied by one
multiplication or division of floating-point numbers.
-/
namespace FieldGraph.Json

structure NumberText where
  negative : Bool
  whole : List Char
  fraction : Option (List Char)
  exponent : Option Int
  deriving DecidableEq, Repr

/-- Appends digits to a significand as long as it fits 64 bits; gives the digits left over. -/
def takeSignificand (significand : Nat) : List Char → Nat × List Char
  | [] => (significand, [])
  | c :: rest =>
    let next := 10 * significand + (c.toNat - '0'.toNat)
    if next < 0x10000000000000000 then takeSignificand next rest else (significand, c :: rest)

def powerOfTen (n : Nat) : Binary64 := .ofDecimal false 1 n

def timesPowerOfTen? (x : Finite64) (n : Nat) : Option Finite64 :=
  match powerOfTen n with
  | .finite p =>
    match x.mul p with
    | .finite y => some y
    | _ => none
  | _ => none

def overPowerOfTen? (x : Finite64) (n : Nat) : Option Finite64 :=
  match powerOfTen n with
  | .finite p =>
    match x.div p with
    | .finite y => some y
    | _ => none
  | _ => none

def maxPower : Nat := 308

def shrink? (x : Finite64) : Nat → Option Finite64
  | 0 => some x
  | n + 1 => if x.isZero then some x else (overPowerOfTen? x maxPower).bind (shrink? · n)

/-- `x * 10 ^ exponent`; `none` when it is too large. A small number is divided by the greatest
power as often as needed, and then by what remains. -/
def scale? (x : Finite64) (exponent : Int) : Option Finite64 :=
  if 0 ≤ exponent then
    if exponent ≤ maxPower then timesPowerOfTen? x exponent.toNat
    else if x.isZero then some x
    else none
  else
    let n := (-exponent).toNat
    let steps := (n - 1) / maxPower
    (shrink? x steps).bind (overPowerOfTen? · (n - steps * maxPower))

def floatOf? (negative : Bool) (significand : Nat) (exponent : Int) : Option Json :=
  match Binary64.ofInt significand with
  | .finite x => (scale? x exponent).map fun y => .float (if negative then y.neg else y)
  | _ => none

/-- An integer that has neither fraction nor exponent. Negative zero and integers below the
range are floating-point numbers. -/
def wholeNumber (negative : Bool) (n : Nat) : Json :=
  let value : Int := if negative then -(n : Int) else n
  if h : (negative → n ≠ 0) ∧ IntegerRange value then .integer value h.2
  else
    match Binary64.ofInt n with
    | .finite x => .float (if negative then x.neg else x)
    | _ => .null

/-- An exponent is limited to 31 bits: a larger one overflows, or leaves zero when it is negative
or there is no significant digit. -/
def withExponent? (negative : Bool) (significand : Nat) (start exponent : Int) : Option Json :=
  if exponent.natAbs < 0x80000000 then floatOf? negative significand (start + exponent)
  else if 0 < exponent ∧ significand ≠ 0 then none
  else some (.float (.zero negative))

def NumberText.value? (t : NumberText) : Option Json :=
  let (significand, dropped) := takeSignificand 0 t.whole
  match t.fraction, t.exponent with
  | none, none =>
    if dropped = [] then some (wholeNumber t.negative significand)
    else floatOf? t.negative significand dropped.length
  | none, some exponent => withExponent? t.negative significand dropped.length exponent
  | some fraction, exponent =>
    let (significand, left) := takeSignificand significand fraction
    let start : Int := dropped.length - (fraction.length - left.length : Nat)
    match exponent with
    | none => floatOf? t.negative significand start
    | some exponent => withExponent? t.negative significand start exponent

/-- Reads the exponent of a number, if one starts here; `none` when it has no digits. -/
def readExponent? : List Char → Option (Option Int × List Char)
  | c :: rest =>
    if c = 'e' ∨ c = 'E' then
      let (sign, rest) := Numeral.spanSign rest
      let (digits, rest) := Numeral.spanDigits rest
      if digits = [] then none else some (some (Numeral.signed sign digits), rest)
    else some (none, c :: rest)
  | [] => some (none, [])

def readFraction? : List Char → Option (Option (List Char) × List Char)
  | '.' :: rest =>
    let (digits, rest) := Numeral.spanDigits rest
    if digits = [] then none else some (some digits, rest)
  | cs => some (none, cs)

def readWhole? (cs : List Char) : Option (List Char × List Char) :=
  let (digits, rest) := Numeral.spanDigits cs
  match digits with
  | [] => none
  | '0' :: _ :: _ => none
  | _ => some (digits, rest)

def NumberText.read? (cs : List Char) : Option (NumberText × List Char) := do
  let (negative, cs) := match cs with
    | '-' :: rest => (true, rest)
    | cs => (false, cs)
  let (whole, cs) ← readWhole? cs
  let (fraction, cs) ← readFraction? cs
  let (exponent, cs) ← readExponent? cs
  return (⟨negative, whole, fraction, exponent⟩, cs)

end FieldGraph.Json
