import FieldGraph.Json.Number
import FieldGraph.Json.Text

/-!
# Reading JSON text

The text of one value, with blanks around it and nothing else. Arrays and objects may be nested to
a given depth. When an object repeats a field, the field keeps its first place and its last value.
-/
namespace FieldGraph.Json

def isSpace (c : Char) : Bool := c == ' ' || c == '\n' || c == '\t' || c == '\r'

def skipSpaces (cs : List Char) : List Char := cs.dropWhile isSpace

def readNumber? (cs : List Char) : Option (Json × List Char) := do
  let (text, rest) ← NumberText.read? cs
  let value ← text.value?
  return (value, rest)

def readText? : List Char → Option (String × List Char)
  | '\x22' :: rest => (readString? rest.length rest).map fun (cs, rest) => (String.ofList cs, rest)
  | _ => none

def readKey? (cs : List Char) : Option (String × List Char) := do
  let (key, rest) ← readText? (skipSpaces cs)
  match skipSpaces rest with
  | ':' :: rest => some (key, rest)
  | _ => none

def readScalar? : List Char → Option (Json × List Char)
  | 'n' :: 'u' :: 'l' :: 'l' :: rest => some (.null, rest)
  | 't' :: 'r' :: 'u' :: 'e' :: rest => some (.bool true, rest)
  | 'f' :: 'a' :: 'l' :: 's' :: 'e' :: rest => some (.bool false, rest)
  | '\x22' :: rest => (readText? ('\x22' :: rest)).map fun (s, rest) => (.string s, rest)
  | cs => readNumber? cs

mutual

/-- One value, and what follows it. Each step reads at least one character, so a limit above the
length of the text is never reached. -/
def readValue? (limit depth : Nat) (cs : List Char) : Option (Json × List Char) :=
  match limit with
  | 0 => none
  | limit + 1 =>
    match skipSpaces cs, depth with
    | '[' :: _, 0 => none
    | '\x7b' :: _, 0 => none
    | '[' :: rest, depth + 1 =>
      match skipSpaces rest with
      | ']' :: rest => some (.array [], rest)
      | rest => (readItems? limit depth rest).map fun (items, rest) => (.array items, rest)
    | '\x7b' :: rest, depth + 1 =>
      match skipSpaces rest with
      | '\x7d' :: rest => some (.object [], rest)
      | rest =>
        (readFields? limit depth [] rest).map fun (fields, rest) => (.object fields, rest)
    | cs, _ => readScalar? cs

def readItems? (limit depth : Nat) (cs : List Char) : Option (List Json × List Char) :=
  match limit with
  | 0 => none
  | limit + 1 => do
    let (item, rest) ← readValue? limit depth cs
    match skipSpaces rest with
    | ']' :: rest => some ([item], rest)
    | ',' :: rest =>
      let (items, rest) ← readItems? limit depth rest
      some (item :: items, rest)
    | _ => none

def readFields? (limit depth : Nat) (before : List (String × Json)) (cs : List Char) :
    Option (List (String × Json) × List Char) :=
  match limit with
  | 0 => none
  | limit + 1 => do
    let (key, rest) ← readKey? cs
    let (value, rest) ← readValue? limit depth rest
    let fields := setField before key value
    match skipSpaces rest with
    | '\x7d' :: rest => some (fields, rest)
    | ',' :: rest => readFields? limit depth fields rest
    | _ => none

end

def maxDepth : Nat := 127

def parseWithin? (depth : Nat) (text : String) : Option Json :=
  let cs := text.toList
  match readValue? (2 * cs.length + 2) depth cs with
  | some (value, rest) => if skipSpaces rest = [] then some value else none
  | none => none

def parse? (text : String) : Option Json := parseWithin? maxDepth text

end FieldGraph.Json
