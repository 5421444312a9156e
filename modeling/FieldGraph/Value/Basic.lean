import FieldGraph.Number.Binary64

/-!
# Property values

The values that properties of nodes and cells of result tables hold.
-/
namespace FieldGraph

inductive Value where
  | null
  | bool (b : Bool)
  | int (i : Int64)
  | float (x : Binary64)
  | string (s : String)
  | list (items : List Value)

instance : Inhabited Value := ⟨.null⟩

namespace Value

def isNull : Value → Bool
  | .null => true
  | _ => false

def clamp (n : Int) : Int64 :=
  Int64.ofInt (max (-0x8000000000000000) (min 0x7FFFFFFFFFFFFFFF n))

/-- The integer that a value stands for. A whole floating-point number counts as one. -/
def int? : Value → Option Int64
  | .int i => some i
  | .float x => x.toInt?.map clamp
  | _ => none

def string? : Value → Option String
  | .string s => some s
  | _ => none

/-- The value of a natural number; one beyond 63 bits becomes a floating-point number. -/
def ofNat (n : Nat) : Value :=
  if n < 0x8000000000000000 then .int (Int64.ofNat n) else .float (.ofInt n)

mutual

/-- Equality of kind and content. Floating-point numbers are compared by value, so not-a-number
is equal to nothing. -/
def same : Value → Value → Bool
  | .null, .null => true
  | .bool a, .bool b => a == b
  | .int a, .int b => a == b
  | .float a, .float b => a.same b
  | .string a, .string b => a == b
  | .list a, .list b => sameAll a b
  | _, _ => false

def sameAll : List Value → List Value → Bool
  | [], [] => true
  | a :: as, b :: bs => same a b && sameAll as bs
  | _, _ => false

end

end Value

end FieldGraph
