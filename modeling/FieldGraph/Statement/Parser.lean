import FieldGraph.Statement.Lexer
import FieldGraph.Statement.Query

/-!
# Parsing statements

Tokens are read from left to right without going back. Loops and nested lists are bounded by the
number of tokens, and each round reads at least one, so the bound is never what ends them.
-/
namespace FieldGraph

/-- A place in a statement: the tokens that are left, and the whole text for column names. -/
structure Cursor where
  source : List Char
  lexemes : List Lexeme

namespace Cursor

def position (c : Cursor) : Nat :=
  match c.lexemes with
  | l :: _ => l.position
  | [] => byteLength c.source

def next? (c : Cursor) : Option Token := c.lexemes.head?.map Lexeme.token

def advance (c : Cursor) : Cursor := { c with lexemes := c.lexemes.tail }

end Cursor

abbrev Parser := StateT Cursor (Except SyntaxError)

namespace Parser

def failAt (fault : SyntaxFault) (position : Nat) : Parser α := fun _ => .error ⟨fault, position⟩

def fail (fault : SyntaxFault) : Parser α := fun c => .error ⟨fault, c.position⟩

def peek : Parser (Option Token) := fun c => .ok (c.next?, c)

def position : Parser Nat := fun c => .ok (c.position, c)

def advance : Parser Unit := fun c => .ok ((), c.advance)

def remaining : Parser Nat := fun c => .ok (c.lexemes.length, c)

/-- Reads the given token if it comes next, and says whether it did. -/
def accept (t : Token) : Parser Bool := fun c =>
  if c.next? = some t then .ok (true, c.advance) else .ok (false, c)

def expect (t : Token) (fault : SyntaxFault) : Parser Unit := do
  if ← accept t then return () else fail fault

def identifier? : Parser (Option String) := fun c =>
  match c.next? with
  | some (.identifier name) => .ok (some name, c.advance)
  | _ => .ok (none, c)

def identifier (fault : SyntaxFault) : Parser String := do
  match ← identifier? with
  | some name => return name
  | none => fail fault

/-- One item or more with commas between them, at most `limit` commas. -/
def separated (item : Parser α) : Nat → Parser (List α)
  | 0 => do return [← item]
  | limit + 1 => do
    let first ← item
    if ← accept .comma then
      let rest ← separated item limit
      return first :: rest
    else
      return [first]

/-- A literal other than a list. A dash stands only before a number. -/
def scalar : Parser Value := do
  let negative ← accept .dash
  match ← peek, negative with
  | some (.integer n), _ =>
    advance
    return .int (if negative then -n else n)
  | some (.float x), _ =>
    advance
    return .float (if negative then x.neg else x)
  | _, true => fail .expectedNumber
  | some (.string s), false =>
    advance
    return .string s
  | some (.keyword .trueWord), false =>
    advance
    return .bool true
  | some (.keyword .falseWord), false =>
    advance
    return .bool false
  | some (.keyword .nullWord), false =>
    advance
    return .null
  | _, false => fail .expectedLiteral

def literal : Nat → Parser Value
  | 0 => scalar
  | limit + 1 => do
    if ← accept .openBracket then
      if ← accept .closeBracket then return .list []
      else
        let items ← separated (literal limit) limit
        expect .closeBracket .expectedCloseBracket
        return .list items
    else
      scalar

def property : Parser (String × Value) := do
  let key ← identifier .expectedKey
  expect .colon .expectedKeyColon
  let value ← literal (← remaining)
  return (key, value)

def properties : Parser (List (String × Value)) := do
  expect .openBrace .expectedOpenBrace
  if ← accept .closeBrace then return []
  else
    let pairs ← separated property (← remaining)
    expect .closeBrace .expectedCloseBrace
    return pairs

def tag? (fault : SyntaxFault) : Parser (Option String) := do
  if ← accept .colon then
    let name ← identifier fault
    return some name
  else
    return none

def nodePattern : Parser NodePattern := do
  expect .openParen .expectedOpenParen
  let name ← identifier?
  let label ← tag? .expectedLabel
  let pairs ← if (← peek) = some .openBrace then properties else pure []
  expect .closeParen .expectedCloseParen
  return ⟨name, label, pairs⟩

def relationshipDetail : Parser (Option String × Option String) := do
  if ← accept .openBracket then
    let name ← identifier?
    let edgeType ← tag? .expectedRelationshipType
    expect .closeBracket .expectedCloseBracket
    return (name, edgeType)
  else
    return (none, none)

/-- Reads the arrow if it comes next, and the dash otherwise; says whether it was the arrow. -/
def arrowOrDash (arrow : Token) (fault : SyntaxFault) : Parser Bool := do
  if ← accept arrow then return true
  else
    expect .dash fault
    return false

def relationshipPattern : Parser RelationshipPattern := do
  let incoming ← arrowOrDash .leftArrow .expectedRelationshipStart
  let (name, edgeType) ← relationshipDetail
  let outgoing ← arrowOrDash .rightArrow .expectedRelationshipEnd
  match incoming, outgoing with
  | true, true => fail .bothWays
  | true, false => return ⟨name, edgeType, .incoming⟩
  | false, true => return ⟨name, edgeType, .outgoing⟩
  | false, false => return ⟨name, edgeType, .both⟩

def pattern : Parser Pattern := do
  let start ← nodePattern
  let next ← peek
  if next = some .leftArrow ∨ next = some .dash then
    let relationship ← relationshipPattern
    let stop ← nodePattern
    return ⟨start, some (relationship, stop)⟩
  else
    return ⟨start, none⟩

def argument : Parser String := do
  expect .openParen .expectedOpenParen
  let name ← identifier .expectedVariable
  expect .closeParen .expectedCloseParen
  return name

def lowercase (name : String) : String := String.ofList (name.toList.map Char.toLower)

def operand : Parser Operand := do
  let start ← position
  match ← identifier? with
  | none =>
    let value ← literal (← remaining)
    return .literal value
  | some name =>
    if ← accept .dot then
      let key ← identifier .expectedPropertyName
      return .property name key
    else
      match lowercase name with
      | "id" => return .id (← argument)
      | "labels" => return .labels (← argument)
      | _ => failAt .expectedOperand start

def comparisonOp : Parser ComparisonOp := do
  match ← peek with
  | some .equals =>
    advance
    return .equals
  | some .notEquals =>
    advance
    return .notEquals
  | some (.keyword .containsWord) =>
    advance
    return .contains
  | _ => fail .expectedComparison

def comparison : Parser Comparison := do
  let left ← operand
  let op ← comparisonOp
  let right ← operand
  return ⟨left, op, right⟩

def conjunction : Nat → Parser (List Comparison)
  | 0 => do return [← comparison]
  | limit + 1 => do
    let first ← comparison
    if ← accept (.keyword .andWord) then
      let rest ← conjunction limit
      return first :: rest
    else
      return [first]

def startsCount : List Lexeme → Bool
  | ⟨.identifier name, _⟩ :: ⟨.openParen, _⟩ :: _ => lowercase name == "count"
  | _ => false

def projection : Parser Projection := do
  let counts ← fun c => .ok (startsCount c.lexemes, c)
  if counts then
    advance
    return .count (← argument)
  else
    return .value (← operand)

/-- The characters that begin before byte `n` of a text. -/
def takeBytes : Nat → List Char → List Char
  | _, [] => []
  | n, c :: rest => if n = 0 then [] else c :: takeBytes (n - c.utf8Size) rest

def dropBytes : Nat → List Char → List Char
  | _, [] => []
  | n, c :: rest => if n = 0 then c :: rest else dropBytes (n - c.utf8Size) rest

/-- The text between two byte offsets, without blanks at its ends. -/
def slice (source : List Char) (start stop : Nat) : String :=
  String.ofList (Text.trim (takeBytes (stop - start) (dropBytes start source)))

/-- A column of the result, named by its text up to the next token. -/
def returnItem : Parser ReturnItem := do
  let start ← position
  let item ← projection
  fun c => .ok (⟨item, slice c.source start c.position⟩, c)

def clause : Parser Clause := do
  match ← peek with
  | some (.keyword .mergeWord) =>
    advance
    return .merge (← pattern)
  | some (.keyword .matchWord) =>
    advance
    let found ← pattern
    if ← accept (.keyword .whereWord) then
      return .find found (← conjunction (← remaining))
    else
      return .find found []
  | some (.keyword .returnWord) =>
    advance
    return .result (← separated returnItem (← remaining))
  | _ => fail .expectedClause

def clauses : Nat → Parser Query
  | 0 => return []
  | limit + 1 => do
    match ← peek with
    | none => return []
    | some .semicolon => return []
    | _ =>
      let first ← clause
      let rest ← clauses limit
      return first :: rest

def queries : Nat → Parser Script
  | 0 => return []
  | limit + 1 => do
    match ← peek with
    | none => return []
    | some .semicolon =>
      advance
      queries limit
    | _ =>
      let first ← clauses (limit + 1)
      let rest ← queries limit
      return first :: rest

end Parser

def Script.ofLexemes (source : List Char) (lexemes : List Lexeme) : Except SyntaxError Script :=
  (Parser.queries (lexemes.length + 1) ⟨source, lexemes⟩).map Prod.fst

def Script.parse (text : String) : Except SyntaxError Script := do
  let lexemes ← lex text.toList
  Script.ofLexemes text.toList lexemes

end FieldGraph
