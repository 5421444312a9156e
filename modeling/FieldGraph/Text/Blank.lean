import FieldGraph.Text.Ranges

/-!
# Blank characters

The Unicode property `White_Space`, which separates tokens, and the four line breaks among its
members.
-/
namespace FieldGraph.Text

def blankRanges : List (Nat × Nat) := [
  (0x9, 0xD), (0x20, 0x20), (0x85, 0x85), (0xA0, 0xA0), (0x1680, 0x1680), (0x2000, 0x200A),
  (0x2028, 0x2029), (0x202F, 0x202F), (0x205F, 0x205F), (0x3000, 0x3000)]

def isBlank (c : Char) : Bool := covers blankRanges c.toNat

def isLineBreak (c : Char) : Bool :=
  c == '\n' || c == '\r' || c == '\u2028' || c == '\u2029'

def trim (cs : List Char) : List Char :=
  ((cs.dropWhile isBlank).reverse.dropWhile isBlank).reverse

end FieldGraph.Text
