import FieldGraph.Number.Binary64
import FieldGraph.Text.Identifier

/-!
# Tokens

The words and signs of which statements are made. A name between backticks is an identifier
whatever it spells, and every other name is a keyword in any case if it spells one.
-/
namespace FieldGraph

inductive Keyword where
  | mergeWord
  | matchWord
  | whereWord
  | returnWord
  | andWord
  | containsWord
  | trueWord
  | falseWord
  | nullWord
  deriving DecidableEq, Repr

inductive Token where
  | keyword (k : Keyword)
  | openParen
  | closeParen
  | openBracket
  | closeBracket
  | openBrace
  | closeBrace
  | colon
  | semicolon
  | comma
  | dot
  | leftArrow
  | rightArrow
  | dash
  | equals
  | notEquals
  | string (s : String)
  | integer (n : Int64)
  | float (x : Binary64)
  | identifier (name : String)
  deriving DecidableEq, Repr

/-- A token and the byte offset of its first character. -/
structure Lexeme where
  token : Token
  position : Nat
  deriving DecidableEq, Repr

def keyword? (word : List Char) : Option Keyword :=
  match String.ofList (word.map Char.toUpper) with
  | "MERGE" => some .mergeWord
  | "MATCH" => some .matchWord
  | "WHERE" => some .whereWord
  | "RETURN" => some .returnWord
  | "AND" => some .andWord
  | "CONTAINS" => some .containsWord
  | "TRUE" => some .trueWord
  | "FALSE" => some .falseWord
  | "NULL" => some .nullWord
  | _ => none

def Token.ofWord (word : List Char) : Token :=
  match keyword? word with
  | some k => .keyword k
  | none => .identifier (String.ofList word)

/-- Whether a name can stand in a statement without backticks. -/
def isPlainIdentifier (name : String) : Bool :=
  match name.toList with
  | [] => false
  | c :: rest =>
    Text.startsIdentifier c && rest.all Text.continuesIdentifier && (keyword? (c :: rest)).isNone

end FieldGraph
