import FieldGraph.Number.Numeral
import FieldGraph.Statement.Fault
import FieldGraph.Statement.Token
import FieldGraph.Text.Blank

/-!
# Lexing statements

A statement text is cut into tokens from left to right. Blanks separate tokens and are dropped.
Each token is read by looking at its first character and comes with the number of characters that
it takes.
-/
namespace FieldGraph

def byteLength : List Char → Nat
  | [] => 0
  | c :: rest => c.utf8Size + byteLength rest

namespace Lexer

/-- A token, or a fault, and the number of characters that were read. -/
abbrev Scan := Except SyntaxFault (Token × Nat)

def unescape (c : Char) : Char :=
  if c == 'n' then '\n' else if c == 't' then '\t' else if c == 'r' then '\r' else c

/-- A string after its opening quote: its content, and the number of characters up to and
including the closing quote. -/
def stringBody? (quote : Char) : List Char → Option (List Char × Nat)
  | [] => none
  | c :: rest =>
    if c == '\\' then
      match rest with
      | [] => none
      | e :: rest => (stringBody? quote rest).map fun (text, n) => (unescape e :: text, n + 2)
    else if c == quote then some ([], 1)
    else (stringBody? quote rest).map fun (text, n) => (c :: text, n + 1)

def string (quote : Char) (rest : List Char) : Scan :=
  match stringBody? quote rest with
  | some (text, n) => .ok (.string (String.ofList text), n + 1)
  | none => .error .unterminatedString

def quotedIdentifier (rest : List Char) : Scan :=
  let name := rest.takeWhile (· != '\x60')
  if name.length < rest.length then .ok (.identifier (String.ofList name), name.length + 2)
  else .error .unterminatedIdentifier

def fraction : List Char → List Char × List Char
  | '.' :: rest =>
    if Numeral.startsWithDigit rest then Numeral.spanDigits rest else ([], '.' :: rest)
  | cs => ([], cs)

def exponent : List Char → Option (Int × Nat)
  | c :: rest =>
    let (sign, digits) := Numeral.spanSign rest
    if (c == 'e' || c == 'E') && Numeral.startsWithDigit digits then
      let digits := digits.takeWhile Char.isDigit
      some (Numeral.signed sign digits, 1 + sign.toList.length + digits.length)
    else none
  | [] => none

def number (cs : List Char) : Scan :=
  let (whole, rest) := Numeral.spanDigits cs
  let (part, rest) := fraction rest
  match part, exponent rest with
  | [], none =>
    let n := Numeral.ofDigits whole
    if n < 0x8000000000000000 then .ok (.integer (Int64.ofNat n), whole.length)
    else .error (.integerOutOfRange (String.ofList whole))
  | part, none => .ok (.float (Numeral.decimal false whole part 0), whole.length + 1 + part.length)
  | [], some (e, n) => .ok (.float (Numeral.decimal false whole [] e), whole.length + n)
  | part, some (e, n) =>
    .ok (.float (Numeral.decimal false whole part e), whole.length + 1 + part.length + n)

def word (cs : List Char) : Scan :=
  let name := cs.takeWhile Text.continuesIdentifier
  .ok (.ofWord name, name.length)

def sign (c : Char) (rest : List Char) : Scan :=
  match c, rest with
  | '(', _ => .ok (.openParen, 1)
  | ')', _ => .ok (.closeParen, 1)
  | '[', _ => .ok (.openBracket, 1)
  | ']', _ => .ok (.closeBracket, 1)
  | '\x7b', _ => .ok (.openBrace, 1)
  | '\x7d', _ => .ok (.closeBrace, 1)
  | ':', _ => .ok (.colon, 1)
  | ';', _ => .ok (.semicolon, 1)
  | ',', _ => .ok (.comma, 1)
  | '.', _ => .ok (.dot, 1)
  | '=', _ => .ok (.equals, 1)
  | '-', '>' :: _ => .ok (.rightArrow, 2)
  | '-', _ => .ok (.dash, 1)
  | '<', '-' :: _ => .ok (.leftArrow, 2)
  | '<', '>' :: _ => .ok (.notEquals, 2)
  | c, _ => .error (.unexpectedCharacter c)

def token (c : Char) (rest : List Char) : Scan :=
  if c == '\'' || c == '\x22' then string c rest
  else if c == '\x60' then quotedIdentifier rest
  else if c.isDigit then number (c :: rest)
  else if Text.startsIdentifier c then word (c :: rest)
  else sign c rest

/-- The tokens of a text that starts at `position`, after passing over the first `skip`
characters, which belong to a token that has been read. -/
def lexFrom (position skip : Nat) : List Char → Except SyntaxError (List Lexeme)
  | [] => .ok []
  | c :: rest =>
    match skip with
    | skip + 1 => lexFrom (position + c.utf8Size) skip rest
    | 0 =>
      if Text.isBlank c then lexFrom (position + c.utf8Size) 0 rest
      else
        match token c rest with
        | .error fault => .error ⟨fault, position⟩
        | .ok (t, n) => do
          let lexemes ← lexFrom (position + c.utf8Size) (n - 1) rest
          return ⟨t, position⟩ :: lexemes

end Lexer

def lex (cs : List Char) : Except SyntaxError (List Lexeme) := Lexer.lexFrom 0 0 cs

end FieldGraph
