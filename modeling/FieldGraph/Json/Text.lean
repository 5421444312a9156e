/-!
# Strings in JSON text

Between its quotes a string holds no control characters. A character may be written as an escape;
one beyond the first 65536 code points takes two escapes, a high and a low half.
-/
namespace FieldGraph.Json

def hexDigit? (c : Char) : Option Nat :=
  if '0' ≤ c ∧ c ≤ '9' then some (c.toNat - '0'.toNat)
  else if 'a' ≤ c ∧ c ≤ 'f' then some (c.toNat - 'a'.toNat + 10)
  else if 'A' ≤ c ∧ c ≤ 'F' then some (c.toNat - 'A'.toNat + 10)
  else none

def readHex? : List Char → Option (Nat × List Char)
  | a :: b :: c :: d :: rest => do
    let value := 4096 * (← hexDigit? a) + 256 * (← hexDigit? b) + 16 * (← hexDigit? c) +
      (← hexDigit? d)
    return (value, rest)
  | _ => none

def isHighHalf (n : Nat) : Bool := 0xD800 ≤ n && n ≤ 0xDBFF

def isLowHalf (n : Nat) : Bool := 0xDC00 ≤ n && n ≤ 0xDFFF

def joinHalves (high low : Nat) : Char :=
  Char.ofNat (0x10000 + (high - 0xD800) * 1024 + (low - 0xDC00))

/-- The character of a code point escape, after its `u`. A half that stands alone is refused. -/
def readCodePoint? (cs : List Char) : Option (Char × List Char) := do
  let (n, rest) ← readHex? cs
  if isLowHalf n then none
  else if isHighHalf n then
    match rest with
    | '\\' :: 'u' :: rest =>
      let (low, rest) ← readHex? rest
      if isLowHalf low then some (joinHalves n low, rest) else none
    | _ => none
  else some (Char.ofNat n, rest)

def shortEscape? : Char → Option Char
  | '\x22' => some '\x22'
  | '\\' => some '\\'
  | '/' => some '/'
  | 'b' => some '\x08'
  | 'f' => some '\x0c'
  | 'n' => some '\n'
  | 'r' => some '\r'
  | 't' => some '\t'
  | _ => none

def readCharacter? : List Char → Option (Char × List Char)
  | [] => none
  | '\\' :: 'u' :: rest => readCodePoint? rest
  | '\\' :: c :: rest => (shortEscape? c).map (·, rest)
  | c :: rest => if c = '\\' ∨ c.toNat < 0x20 then none else some (c, rest)

def readString? (limit : Nat) (cs : List Char) : Option (List Char × List Char) :=
  match limit, cs with
  | _, '\x22' :: rest => some ([], rest)
  | 0, _ => none
  | limit + 1, cs => do
    let (c, rest) ← readCharacter? cs
    let (text, rest) ← readString? limit rest
    return (c :: text, rest)

def hexText (n : Nat) : List Char :=
  [n / 4096 % 16, n / 256 % 16, n / 16 % 16, n % 16].map Nat.digitChar

def escapeChar (c : Char) : List Char :=
  if c = '\x22' ∨ c = '\\' then ['\\', c]
  else if c = '\x08' then ['\\', 'b']
  else if c = '\t' then ['\\', 't']
  else if c = '\n' then ['\\', 'n']
  else if c = '\x0c' then ['\\', 'f']
  else if c = '\r' then ['\\', 'r']
  else if c.toNat < 0x20 then '\\' :: 'u' :: hexText c.toNat
  else [c]

def stringText (s : String) : List Char := '\x22' :: s.toList.flatMap escapeChar ++ ['\x22']

end FieldGraph.Json
