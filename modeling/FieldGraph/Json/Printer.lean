import FieldGraph.Json.Basic
import FieldGraph.Json.Text
import FieldGraph.Number.Layout
import FieldGraph.Text.Quoted

/-!
# Writing JSON

The compact text of a value, without blanks, and the form that diagnostics show.
-/
namespace FieldGraph.Json

mutual

def chars : Json → List Char
  | .null => ['n', 'u', 'l', 'l']
  | .bool true => ['t', 'r', 'u', 'e']
  | .bool false => ['f', 'a', 'l', 's', 'e']
  | .integer n _ => Layout.intText n
  | .float x => Layout.json.finite x
  | .string s => stringText s
  | .array items => '[' :: itemChars items ++ [']']
  | .object fields => '\x7b' :: fieldChars fields ++ ['\x7d']

def itemChars : List Json → List Char
  | [] => []
  | [item] => chars item
  | item :: rest => chars item ++ ',' :: itemChars rest

def fieldChars : List (String × Json) → List Char
  | [] => []
  | [(key, value)] => stringText key ++ ':' :: chars value
  | (key, value) :: rest => stringText key ++ ':' :: chars value ++ ',' :: fieldChars rest

end

def render (j : Json) : String := String.ofList (chars j)

mutual

def inspect : Json → String
  | .null => "Null"
  | .bool b => "Bool(" ++ toString b ++ ")"
  | .integer n _ => "Number(" ++ String.ofList (Layout.intText n) ++ ")"
  | .float x => "Number(" ++ String.ofList (Layout.json.finite x) ++ ")"
  | .string s => "String(" ++ Text.quoted s ++ ")"
  | .array items => "Array [" ++ ", ".intercalate (inspectItems items) ++ "]"
  | .object fields => "Object \x7b" ++ ", ".intercalate (inspectFields fields) ++ "\x7d"

def inspectItems : List Json → List String
  | [] => []
  | item :: rest => inspect item :: inspectItems rest

def inspectFields : List (String × Json) → List String
  | [] => []
  | (key, value) :: rest => (Text.quoted key ++ ": " ++ inspect value) :: inspectFields rest

end

def inspectObject (fields : List (String × Json)) : String :=
  "\x7b" ++ ", ".intercalate (inspectFields fields) ++ "\x7d"

end FieldGraph.Json
