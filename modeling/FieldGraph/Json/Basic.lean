import FieldGraph.Number.Binary64

/-!
# JSON values

Nested data as documents, arguments and answers carry it. Fields keep the order in which they were
written. Integers and floating-point numbers are different values, and a number is never infinite.
-/
namespace FieldGraph

def IntegerRange (n : Int) : Prop := -0x8000000000000000 ≤ n ∧ n < 0x10000000000000000

instance (n : Int) : Decidable (IntegerRange n) := inferInstanceAs (Decidable (_ ∧ _))

inductive Json where
  | null
  | bool (b : Bool)
  | integer (n : Int) (inRange : IntegerRange n)
  | float (x : Finite64)
  | string (s : String)
  | array (items : List Json)
  | object (fields : List (String × Json))

instance : Inhabited Json := ⟨.null⟩

namespace Json

/-- A number without a finite value has no JSON form and becomes null. -/
def ofBinary64 : Binary64 → Json
  | .finite x => .float x
  | _ => .null

/-- An integer, as a floating-point number when it is too large to be kept. -/
def ofInt (n : Int) : Json :=
  if h : IntegerRange n then .integer n h else ofBinary64 (.ofInt n)

def ofNat (n : Nat) : Json := ofInt n

def kind : Json → String
  | .null => "null"
  | .bool _ => "boolean"
  | .integer _ _ => "number"
  | .float _ => "number"
  | .string _ => "string"
  | .array _ => "array"
  | .object _ => "object"

/-- Gives a field a value. A field that is present keeps its place; a new one goes to the end. -/
def setField (fields : List (String × Json)) (key : String) (value : Json) :
    List (String × Json) :=
  match fields with
  | [] => [(key, value)]
  | (k, v) :: rest => if k = key then (k, value) :: rest else (k, v) :: setField rest key value

def overlay (fields others : List (String × Json)) : List (String × Json) :=
  others.foldl (fun merged (key, value) => setField merged key value) fields

mutual

/-- No object within the value has two fields of one name. -/
def WellFormed : Json → Prop
  | .array items => WellFormedItems items
  | .object fields => (fields.map Prod.fst).Nodup ∧ WellFormedFields fields
  | _ => True

def WellFormedItems : List Json → Prop
  | [] => True
  | item :: rest => WellFormed item ∧ WellFormedItems rest

def WellFormedFields : List (String × Json) → Prop
  | [] => True
  | (_, value) :: rest => WellFormed value ∧ WellFormedFields rest

end

end Json

end FieldGraph
