import FieldGraph.Text.Blank

/-!
# Search tokens

A search text is free text mixed with filters of the form `key:value`. The key is the part of a
word before its last colon. A value in double quotes ends at the next quote on the same line; any
other value ends at the next blank, which belongs to it. Text that precedes a filter on its line is
kept with the filter.
-/
namespace FieldGraph

inductive RawValue where
  | quoted (text : List Char)
  | bare (text : List Char)
  deriving DecidableEq, Repr

/-- A filter, with the text of its line that precedes it. -/
structure SearchToken where
  text : List Char
  key : List Char
  value : RawValue
  deriving DecidableEq, Repr

namespace RawValue

def isWordChar (c : Char) : Bool := !Text.isBlank c

def isQuotable (c : Char) : Bool := c != '\x22' && !Text.isLineBreak c

/-- The value that starts a text. A quote that is not closed on its line is part of a bare value. -/
def read : List Char → RawValue
  | '\x22' :: rest =>
    match rest.dropWhile isQuotable with
    | '\x22' :: _ => .quoted (rest.takeWhile isQuotable)
    | _ => .bare ('\x22' :: rest.takeWhile isWordChar)
  | cs => .bare (cs.takeWhile isWordChar)

/-- The number of characters that a value takes: its quotes or the blank after it count. -/
def length : RawValue → Nat
  | .quoted text => text.length + 2
  | .bare text => text.length + 1

end RawValue

namespace SearchToken

/-- The part of a word before its last colon. -/
def keyOf? (word : List Char) : Option (List Char) :=
  match word.reverse.dropWhile (· != ':') with
  | [] => none
  | _ :: before => some before.reverse

def filterAt? (cs : List Char) : Option (List Char × RawValue) :=
  (keyOf? (cs.takeWhile RawValue.isWordChar)).map fun key =>
    (key, RawValue.read (cs.drop (key.length + 1)))

/-- The filters of a text, after passing over its first `skip` characters. `pending` is the text
of the line before. -/
def scan (pending : List Char) (skip : Nat) : List Char → List SearchToken
  | [] => []
  | c :: rest =>
    match skip with
    | skip + 1 => scan pending skip rest
    | 0 =>
      if Text.isLineBreak c then scan [] 0 rest
      else
        match filterAt? (c :: rest) with
        | some (key, value) => ⟨pending, key, value⟩ :: scan [] (key.length + value.length) rest
        | none => scan (pending ++ [c]) 0 rest

end SearchToken

def searchTokens (cs : List Char) : List SearchToken := SearchToken.scan [] 0 cs

end FieldGraph
