import FieldGraph.Json.Basic
import FieldGraph.Value.Basic

/-!
# Values and JSON

A value is written as plain JSON. Reading takes an integer that does not fit 63 bits as a
floating-point number, and has no value for an object.
-/
namespace FieldGraph.Value

theorem int64_inRange (i : Int64) : IntegerRange i.toInt := by
  have low := i.le_toInt
  have high := i.toInt_lt
  unfold IntegerRange
  omega

mutual

/-- The JSON form of a value; a number that is not finite becomes null. -/
def toJson : Value → Json
  | .null => .null
  | .bool b => .bool b
  | .int i => .integer i.toInt (int64_inRange i)
  | .float x => .ofBinary64 x
  | .string s => .string s
  | .list items => .array (toJsons items)

def toJsons : List Value → List Json
  | [] => []
  | item :: rest => toJson item :: toJsons rest

end

def ofInteger (n : Int) : Value :=
  if n < 0x8000000000000000 then .int (Int64.ofInt n) else .float (.ofInt n)

/-- The value of a JSON scalar; an array or object has none. -/
def ofScalar? : Json → Option Value
  | .null => some .null
  | .bool b => some (.bool b)
  | .integer n _ => some (ofInteger n)
  | .float x => some (.float (.finite x))
  | .string s => some (.string s)
  | .array _ => none
  | .object _ => none

mutual

/-- The value that JSON denotes; there is none if an object occurs in it. -/
def ofJson? : Json → Option Value
  | .null => some .null
  | .bool b => some (.bool b)
  | .integer n _ => some (ofInteger n)
  | .float x => some (.float (.finite x))
  | .string s => some (.string s)
  | .array items => (ofJsons? items).map .list
  | .object _ => none

def ofJsons? : List Json → Option (List Value)
  | [] => some []
  | item :: rest => do
    let value ← ofJson? item
    let values ← ofJsons? rest
    return value :: values

end

end FieldGraph.Value
