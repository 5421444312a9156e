/-!
# Faults of statements

What makes a statement text unreadable, and what stops the evaluation of one that was read.
-/
namespace FieldGraph

inductive SyntaxFault where
  | unexpectedCharacter (c : Char)
  | unterminatedString
  | unterminatedIdentifier
  | integerOutOfRange (digits : String)
  | expectedClause
  | expectedOpenParen
  | expectedCloseParen
  | expectedLabel
  | expectedRelationshipStart
  | expectedRelationshipType
  | expectedCloseBracket
  | expectedRelationshipEnd
  | bothWays
  | expectedOpenBrace
  | expectedKey
  | expectedKeyColon
  | expectedCloseBrace
  | expectedNumber
  | expectedLiteral
  | expectedComparison
  | expectedPropertyName
  | expectedOperand
  | expectedVariable
  deriving DecidableEq, Repr

def SyntaxFault.message : SyntaxFault → String
  | .unexpectedCharacter c => "unexpected character '" ++ String.singleton c ++ "'"
  | .unterminatedString => "unterminated string literal"
  | .unterminatedIdentifier => "unterminated quoted identifier"
  | .integerOutOfRange digits => "integer out of range '" ++ digits ++ "'"
  | .expectedClause => "expected MERGE, MATCH or RETURN"
  | .expectedOpenParen => "expected '('"
  | .expectedCloseParen => "expected ')'"
  | .expectedLabel => "expected label after ':'"
  | .expectedRelationshipStart => "expected '-' or '<-'"
  | .expectedRelationshipType => "expected relationship type after ':'"
  | .expectedCloseBracket => "expected ']'"
  | .expectedRelationshipEnd => "expected '-' or '->'"
  | .bothWays => "relationship cannot point both ways"
  | .expectedOpenBrace => "expected '\x7b'"
  | .expectedKey => "expected property key"
  | .expectedKeyColon => "expected ':' after property key"
  | .expectedCloseBrace => "expected '\x7d'"
  | .expectedNumber => "expected number after '-'"
  | .expectedLiteral => "expected literal"
  | .expectedComparison => "expected '=', '<>' or CONTAINS"
  | .expectedPropertyName => "expected property name after '.'"
  | .expectedOperand => "expected property access, id() or labels()"
  | .expectedVariable => "expected variable"

/-- A fault of a statement text and the byte offset at which it shows. -/
structure SyntaxError where
  fault : SyntaxFault
  position : Nat
  deriving DecidableEq, Repr

inductive EvaluationFault where
  | mergeNeedsWriteAccess
  | returnNotLast
  | relationshipAsNode (name : String)
  | mergeNeedsType
  | alreadyBound (name : String)
  | undefinedVariable (name : String)
  | labelsOfRelationship (name : String)
  deriving DecidableEq, Repr

def EvaluationFault.message : EvaluationFault → String
  | .mergeNeedsWriteAccess => "MERGE requires write access to the graph"
  | .returnNotLast => "RETURN must be the last clause"
  | .relationshipAsNode v => "variable `" ++ v ++ "` is a relationship, not a node"
  | .mergeNeedsType => "MERGE needs a relationship type"
  | .alreadyBound v =>
    "variable `" ++ v ++ "` is already bound and cannot take a new label or properties"
  | .undefinedVariable v => "variable `" ++ v ++ "` is not defined"
  | .labelsOfRelationship v => "labels() expects a node, `" ++ v ++ "` is a relationship"

end FieldGraph
