import FieldGraph.Number.Binary64

/-!
# Reading numbers from text

Decimal digits, signs, fractions and exponents, and the integers and floating-point numbers they
denote.
-/
namespace FieldGraph.Numeral

def ofDigits (cs : List Char) : Nat :=
  cs.foldl (fun n c => 10 * n + (c.toNat - '0'.toNat)) 0

def spanDigits (cs : List Char) : List Char × List Char :=
  (cs.takeWhile Char.isDigit, cs.dropWhile Char.isDigit)

def startsWithDigit : List Char → Bool
  | c :: _ => c.isDigit
  | [] => false

def spanSign : List Char → Option Char × List Char
  | '+' :: rest => (some '+', rest)
  | '-' :: rest => (some '-', rest)
  | cs => (none, cs)

def signed (sign : Option Char) (digits : List Char) : Int :=
  if sign = some '-' then -(ofDigits digits : Int) else ofDigits digits

def int64? (cs : List Char) : Option Int64 :=
  let (sign, digits) := spanSign cs
  let value := signed sign digits
  if digits ≠ [] ∧ digits.all Char.isDigit ∧
      -0x8000000000000000 ≤ value ∧ value < 0x8000000000000000 then
    some (Int64.ofInt value)
  else none

/-- An exponent: `e`, a sign if any, and digits. A text without one has exponent zero. -/
def exponent? : List Char → Option Int
  | [] => some 0
  | c :: rest =>
    let (sign, digits) := spanSign rest
    if (c = 'e' ∨ c = 'E') ∧ digits ≠ [] ∧ digits.all Char.isDigit then some (signed sign digits)
    else none

def decimal (negative : Bool) (whole fraction : List Char) (exponent : Int) : Binary64 :=
  Binary64.ofDecimal negative (ofDigits (whole ++ fraction)) (exponent - fraction.length)

/-- An unsigned decimal with digits on at least one side of its point. -/
def unsigned? (negative : Bool) (cs : List Char) : Option Binary64 :=
  let (whole, rest) := spanDigits cs
  let (fraction, rest) := match rest with
    | '.' :: rest => spanDigits rest
    | rest => ([], rest)
  if whole = [] ∧ fraction = [] then none
  else (exponent? rest).map (decimal negative whole fraction)

/-- A whole text as a floating-point number; infinity and not-a-number go by name in any case. -/
def binary64? (cs : List Char) : Option Binary64 :=
  let (sign, rest) := spanSign cs
  let negative := sign = some '-'
  match String.ofList (rest.map Char.toLower) with
  | "nan" => some .nan
  | "inf" | "infinity" => some (.infinite negative)
  | _ => unsigned? negative rest

end FieldGraph.Numeral
