import FieldGraph.Proofs.Statement.ByteLexer

/-!
# Parsing by token numbers

A parser that keeps the number of the next token and looks tokens up by their numbers. A number
without a token is a miss, and so is a loop of more rounds than there are tokens with the end.
-/
namespace FieldGraph

/-- A text with its tokens, of which the last is its end. -/
structure Marked where
  source : List Char
  marks : List Mark

/-- Work at the token with a number, which it may change. -/
abbrev IndexParser := StateT Nat Checked

namespace IndexParser

variable (t : Marked)

def peek : IndexParser Mark := do
  let i ← get
  let mark ← t.marks[i]?
  return mark

def isAtEnd : IndexParser Bool := return (← peek t).token.isNone

def previous : IndexParser Mark := do
  match ← get with
  | 0 => fun _ => miss
  | i + 1 =>
    let mark ← t.marks[i]?
    return mark

/-- Passes over the next token, but not over the end, and looks at what was passed. -/
def advance : IndexParser Unit := do
  if !(← isAtEnd t) then modify (· + 1)
  discard (previous t)

def fail (fault : SyntaxFault) : IndexParser α := do
  let mark ← peek t
  throw ⟨fault, mark.position⟩

/-- Fails at the token before the next one, if there is one. -/
def failBefore (fault : SyntaxFault) : IndexParser α := do
  let i ← get
  let mark ← t.marks[i - 1]?
  throw ⟨fault, mark.position⟩

def check (token : Token) : IndexParser Bool := return (← peek t).token = some token

def accept (token : Token) : IndexParser Bool := do
  if ← check t token then
    advance t
    return true
  else
    return false

def expect (token : Token) (fault : SyntaxFault) : IndexParser Unit := do
  if ← check t token then advance t else fail t fault

def identifier? : IndexParser (Option String) := do
  match (← peek t).token with
  | some (.identifier name) =>
    advance t
    return some name
  | _ => return none

def identifier (fault : SyntaxFault) : IndexParser String := do
  match ← identifier? t with
  | some name => return name
  | none => fail t fault

def loop (sign : Token) (item : IndexParser α) : Nat → IndexParser (List α)
  | 0 => fun _ => miss
  | limit + 1 => do
    let first ← item
    if ← accept t sign then
      let rest ← loop sign item limit
      return first :: rest
    else
      return [first]

def separated (item : IndexParser α) : IndexParser (List α) := loop t .comma item t.marks.length

def scalar (negative : Bool) : IndexParser Value := do
  match (← peek t).token, negative with
  | some (.integer n), _ =>
    advance t
    return .int (if negative then -n else n)
  | some (.float x), _ =>
    advance t
    return .float (if negative then x.neg else x)
  | _, true => fail t .expectedNumber
  | some (.string s), false =>
    advance t
    return .string s
  | some (.keyword .trueWord), false =>
    advance t
    return .bool true
  | some (.keyword .falseWord), false =>
    advance t
    return .bool false
  | some (.keyword .nullWord), false =>
    advance t
    return .null
  | _, false => fail t .expectedLiteral

/-- A literal with lists that are nested less deep than the limit. -/
def nested : Nat → IndexParser Value
  | 0 => fun _ => miss
  | limit + 1 => do
    let negative ← accept t .dash
    if !negative && (← check t .openBracket) then
      advance t
      let empty ← check t .closeBracket
      let items ← if empty then pure [] else separated t (nested limit)
      expect t .closeBracket .expectedCloseBracket
      return .list items
    else
      scalar t negative

def literal : IndexParser Value := nested t t.marks.length

def property : IndexParser (String × Value) := do
  let key ← identifier t .expectedKey
  expect t .colon .expectedKeyColon
  let value ← literal t
  return (key, value)

def properties : IndexParser (List (String × Value)) := do
  expect t .openBrace .expectedOpenBrace
  let empty ← check t .closeBrace
  let pairs ← if empty then pure [] else separated t (property t)
  expect t .closeBrace .expectedCloseBrace
  return pairs

def tag? (fault : SyntaxFault) : IndexParser (Option String) := do
  if ← accept t .colon then
    let name ← identifier t fault
    return some name
  else
    return none

def nodePattern : IndexParser NodePattern := do
  expect t .openParen .expectedOpenParen
  let name ← identifier? t
  let label ← tag? t .expectedLabel
  let pairs ← if ← check t .openBrace then properties t else pure []
  expect t .closeParen .expectedCloseParen
  return ⟨name, label, pairs⟩

def relationshipDetail : IndexParser (Option String × Option String) := do
  if ← accept t .openBracket then
    let name ← identifier? t
    let edgeType ← tag? t .expectedRelationshipType
    expect t .closeBracket .expectedCloseBracket
    return (name, edgeType)
  else
    return (none, none)

def arrowOrDash (arrow : Token) (fault : SyntaxFault) : IndexParser Bool := do
  if ← accept t arrow then return true
  else
    expect t .dash fault
    return false

def relationshipPattern : IndexParser RelationshipPattern := do
  let incoming ← arrowOrDash t .leftArrow .expectedRelationshipStart
  let (name, edgeType) ← relationshipDetail t
  let outgoing ← arrowOrDash t .rightArrow .expectedRelationshipEnd
  match incoming, outgoing with
  | true, true => fail t .bothWays
  | true, false => return ⟨name, edgeType, .incoming⟩
  | false, true => return ⟨name, edgeType, .outgoing⟩
  | false, false => return ⟨name, edgeType, .both⟩

def pattern : IndexParser Pattern := do
  let start ← nodePattern t
  if (← check t .leftArrow) || (← check t .dash) then
    let relationship ← relationshipPattern t
    let stop ← nodePattern t
    return ⟨start, some (relationship, stop)⟩
  else
    return ⟨start, none⟩

def argument : IndexParser String := do
  expect t .openParen .expectedOpenParen
  let name ← identifier t .expectedVariable
  expect t .closeParen .expectedCloseParen
  return name

def operand : IndexParser Operand := do
  match ← identifier? t with
  | none =>
    let value ← literal t
    return .literal value
  | some name =>
    if ← accept t .dot then
      let key ← identifier t .expectedPropertyName
      return .property name key
    else
      let function := Parser.lowercase name
      if function = "id" then return .id (← argument t)
      else if function = "labels" then return .labels (← argument t)
      else failBefore t .expectedOperand

def comparisonOp : IndexParser ComparisonOp := do
  if ← accept t .equals then return .equals
  else if ← accept t .notEquals then return .notEquals
  else if ← accept t (.keyword .containsWord) then return .contains
  else fail t .expectedComparison

def comparison : IndexParser Comparison := do
  let left ← operand t
  let op ← comparisonOp t
  let right ← operand t
  return ⟨left, op, right⟩

def conjunction : IndexParser (List Comparison) :=
  loop t (.keyword .andWord) (comparison t) t.marks.length

def startsCall (function : String) : IndexParser Bool := do
  match (← peek t).token with
  | some (.identifier name) =>
    let i ← get
    let after := t.marks[i + 1]?.bind Mark.token
    return Parser.lowercase name == function && after == some .openParen
  | _ => return false

def projection : IndexParser Projection := do
  if ← startsCall t "count" then
    advance t
    return .count (← argument t)
  else
    return .value (← operand t)

def returnItem : IndexParser ReturnItem := do
  let start := (← peek t).position
  let item ← projection t
  let stop := (← peek t).position
  let text ← between? t.source start stop
  return ⟨item, String.ofList (Text.trim text)⟩

def clause : IndexParser Clause := do
  if ← accept t (.keyword .mergeWord) then
    return .merge (← pattern t)
  else if ← accept t (.keyword .matchWord) then
    let found ← pattern t
    if ← accept t (.keyword .whereWord) then
      return .find found (← conjunction t)
    else
      return .find found []
  else if ← accept t (.keyword .returnWord) then
    return .result (← separated t (returnItem t))
  else
    fail t .expectedClause

def clauses : Nat → IndexParser Query
  | 0 => fun _ => miss
  | limit + 1 => do
    if (← isAtEnd t) || (← check t .semicolon) then return []
    else
      let first ← clause t
      let rest ← clauses limit
      return first :: rest

def queries : Nat → IndexParser Script
  | 0 => fun _ => miss
  | limit + 1 => do
    if ← isAtEnd t then return []
    else if ← accept t .semicolon then queries limit
    else
      let first ← clauses t t.marks.length
      let rest ← queries limit
      return first :: rest

def script (source : List Char) : Checked Script := do
  let marks ← ByteLexer.lex source
  let (script, _) ← queries ⟨source, marks⟩ marks.length 0
  return script

end IndexParser

end FieldGraph
