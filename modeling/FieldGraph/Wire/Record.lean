import FieldGraph.Json.Basic
import FieldGraph.Value.Json

/-!
# Records in JSON

A record is read from an object with its fields by name, in any order and among others, or from an
array of its fields in order and no others. A field that may be absent has a default: for some
fields in both forms, for others only where fields go by name.
-/
namespace FieldGraph.Wire

/-- The fields of a record: what is given for each, and whether they go by name. -/
structure RecordFields where
  byName : Bool
  given : String → Option Json

def recordFields? (names : List String) : Json → Option RecordFields
  | .object fields => some ⟨true, fun name => fields.lookup name⟩
  | .array items =>
    if items.length ≤ names.length then some ⟨false, fun name => (names.zip items).lookup name⟩
    else none
  | _ => none

namespace RecordFields

def required (r : RecordFields) (name : String) (decode : Json → Option α) : Option α :=
  (r.given name).bind decode

def withDefault (r : RecordFields) (name : String) (default : α) (decode : Json → Option α) :
    Option α :=
  match r.given name with
  | some value => decode value
  | none => some default

/-- A field that may be absent where fields go by name. -/
def optional (r : RecordFields) (name : String) (decode : Json → Option (Option α)) :
    Option (Option α) :=
  match r.given name with
  | some value => decode value
  | none => if r.byName then some none else none

end RecordFields

def string? : Json → Option String
  | .string s => some s
  | _ => none

def nat? : Json → Option Nat
  | .integer n _ => if 0 ≤ n then some n.toNat else none
  | _ => none

def nullable (decode : Json → Option α) : Json → Option (Option α)
  | .null => some none
  | value => (decode value).map some

def list? (decode : Json → Option α) : Json → Option (List α)
  | .array items => items.mapM decode
  | _ => none

def object? : Json → Option (List (String × Json))
  | .object fields => some fields
  | _ => none

/-- A choice among names: a string, or an object that has null under the name. -/
def choice? (options : List (String × α)) : Json → Option α
  | .string name => options.lookup name
  | .object [(name, .null)] => options.lookup name
  | _ => none

def nullableJson (encode : α → Json) : Option α → Json
  | some a => encode a
  | none => .null

end FieldGraph.Wire
