import FieldGraph.Config.Basic
import FieldGraph.File

/-!
# Reading a configuration file

The file holds an object of settings, or an array of them in order. A setting may be given only
once. Fields that are no settings are passed over: what stands there has to be JSON in form, but
numbers of any size, halves of characters and any depth are accepted.
-/
namespace FieldGraph.Config

def skipString? : List Char → Option (List Char)
  | '\x22' :: rest => some rest
  | '\\' :: 'u' :: a :: b :: c :: d :: rest =>
    if [a, b, c, d].all fun x => (Json.hexDigit? x).isSome then skipString? rest else none
  | '\\' :: c :: rest => if (Json.shortEscape? c).isSome then skipString? rest else none
  | c :: rest => if c = '\\' ∨ c.toNat < 0x20 then none else skipString? rest
  | [] => none

def skipScalar? : List Char → Option (List Char)
  | 'n' :: 'u' :: 'l' :: 'l' :: rest => some rest
  | 't' :: 'r' :: 'u' :: 'e' :: rest => some rest
  | 'f' :: 'a' :: 'l' :: 's' :: 'e' :: rest => some rest
  | '\x22' :: rest => skipString? rest
  | cs => (Json.NumberText.read? cs).map Prod.snd

def skipKey? (cs : List Char) : Option (List Char) :=
  match Json.skipSpaces cs with
  | '\x22' :: rest => do
    let rest ← skipString? rest
    match Json.skipSpaces rest with
    | ':' :: rest => some rest
    | _ => none
  | _ => none

mutual

/-- Passes over a value. Each step reads at least one character, so a limit above the length of
the text is never reached. -/
def skipValue? (limit : Nat) (cs : List Char) : Option (List Char) :=
  match limit with
  | 0 => none
  | limit + 1 =>
    match Json.skipSpaces cs with
    | '[' :: rest =>
      match Json.skipSpaces rest with
      | ']' :: rest => some rest
      | rest => skipItems? limit rest
    | '\x7b' :: rest =>
      match Json.skipSpaces rest with
      | '\x7d' :: rest => some rest
      | rest => skipFields? limit rest
    | cs => skipScalar? cs

def skipItems? (limit : Nat) (cs : List Char) : Option (List Char) :=
  match limit with
  | 0 => none
  | limit + 1 => do
    let rest ← skipValue? limit cs
    match Json.skipSpaces rest with
    | ']' :: rest => some rest
    | ',' :: rest => skipItems? limit rest
    | _ => none

def skipFields? (limit : Nat) (cs : List Char) : Option (List Char) :=
  match limit with
  | 0 => none
  | limit + 1 => do
    let rest ← skipKey? cs
    let rest ← skipValue? limit rest
    match Json.skipSpaces rest with
    | '\x7d' :: rest => some rest
    | ',' :: rest => skipFields? limit rest
    | _ => none

end

def readSetting? (s : Settings) (key : SettingKey) (cs : List Char) :
    Option (Settings × List Char) := do
  let (value, rest) ← Json.readScalar? (Json.skipSpaces cs)
  let s ← s.add? key value
  return (s, rest)

def readField? (s : Settings) (cs : List Char) : Option (Settings × List Char) := do
  let (name, rest) ← Json.readKey? cs
  match SettingKey.ofName? name with
  | some key => readSetting? s key rest
  | none =>
    let rest ← skipValue? (2 * rest.length + 2) rest
    return (s, rest)

def readFields? (limit : Nat) (s : Settings) (cs : List Char) : Option (Settings × List Char) :=
  match limit with
  | 0 => none
  | limit + 1 => do
    let (s, rest) ← readField? s cs
    match Json.skipSpaces rest with
    | '\x7d' :: rest => some (s, rest)
    | ',' :: rest => readFields? limit s rest
    | _ => none

def readItems? (s : Settings) : List SettingKey → List Char → Option (Settings × List Char)
  | [], _ => none
  | key :: keys, cs => do
    let (s, rest) ← readSetting? s key cs
    match Json.skipSpaces rest with
    | ']' :: rest => some (s, rest)
    | ',' :: rest => readItems? s keys rest
    | _ => none

def readSettings? (cs : List Char) : Option (Settings × List Char) :=
  match Json.skipSpaces cs with
  | '\x7b' :: rest =>
    match Json.skipSpaces rest with
    | '\x7d' :: rest => some (.empty, rest)
    | rest => readFields? (rest.length + 1) .empty rest
  | '[' :: rest =>
    match Json.skipSpaces rest with
    | ']' :: rest => some (.empty, rest)
    | rest => readItems? .empty SettingKey.all rest
  | _ => none

def parse? (text : String) : Option Config :=
  match readSettings? text.toList with
  | some (s, rest) => if Json.skipSpaces rest = [] then some s.toConfig else none
  | none => none

def load (path : String) (content : FileContent) : Except GraphError Config := do
  let text ← content.text path
  match parse? text with
  | some config => return config
  | none => .error (.content (.notConfig path))

end FieldGraph.Config
