import FieldGraph.Text.Combining
import FieldGraph.Text.Invisible

/-!
# Quoted text for diagnostics

A text between double quotes in which every character can be seen: quotes, backslashes and the
common controls take a short escape, and other characters that are invisible or would merge with
their neighbour are written by code point.
-/
namespace FieldGraph.Text

def codePointEscape (c : Char) : List Char :=
  ['\\', 'u', '\x7b'] ++ Nat.toDigits 16 c.toNat ++ ['\x7d']

def quotedChar (c : Char) : List Char :=
  if c == '\x00' then ['\\', '0']
  else if c == '\t' then ['\\', 't']
  else if c == '\r' then ['\\', 'r']
  else if c == '\n' then ['\\', 'n']
  else if c == '\\' || c == '\x22' then ['\\', c]
  else if isCombining c || isInvisible c then codePointEscape c
  else [c]

def quoted (s : String) : String :=
  String.ofList ('\x22' :: s.toList.flatMap quotedChar ++ ['\x22'])

def quotedOption : Option String → String
  | none => "None"
  | some s => "Some(" ++ quoted s ++ ")"

end FieldGraph.Text
