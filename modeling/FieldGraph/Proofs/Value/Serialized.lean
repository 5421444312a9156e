import FieldGraph.Json.Printer
import FieldGraph.Proofs.Value.ReadBack
import FieldGraph.Value.Json

/-!
# Values as JSON and back

A value with finite numbers is read back from its JSON form, with the same kind at every depth. The
JSON form is what a serializer makes of the value that is told of its parts one by one, and reading
tries the kinds of value in a fixed order and takes the first that fits.
-/
namespace FieldGraph

/-- What is made of each kind of data when it is written. -/
structure Serializer (α : Type) where
  unit : α
  bool : Bool → α
  i64 : Int64 → α
  f64 : Binary64 → α
  str : String → α
  seq : List α → α

namespace Serializer

/-- Data as a JSON value. There is none for a number that is not finite. -/
def json : Serializer Json where
  unit := .null
  bool := .bool
  i64 i := .integer i.toInt (Value.int64_inRange i)
  f64
    | .finite x => .float x
    | _ => .null
  str := .string
  seq := .array

def text : Serializer (List Char) where
  unit := "null".toList
  bool b := (if b then "true" else "false").toList
  i64 i := Layout.intText i.toInt
  f64
    | .finite x => Layout.json.finite x
    | _ => "null".toList
  str := Json.stringText
  seq items := '[' :: [','].intercalate items ++ [']']

end Serializer

namespace Value

mutual

/-- A value as a serializer writes it: the data of its kind alone, without a name for the kind. -/
def serialize {α : Type} (s : Serializer α) : Value → α
  | .null => s.unit
  | .bool b => s.bool b
  | .int i => s.i64 i
  | .float x => s.f64 x
  | .string t => s.str t
  | .list items => s.seq (serializeAll s items)

def serializeAll {α : Type} (s : Serializer α) : List Value → List α
  | [] => []
  | item :: rest => serialize s item :: serializeAll s rest

end

mutual

theorem serialize_json : ∀ v : Value, v.serialize .json = v.toJson
  | .null => rfl
  | .bool _ => rfl
  | .int _ => rfl
  | .float (.finite _) => rfl
  | .float (.infinite _) => rfl
  | .float .nan => rfl
  | .string _ => rfl
  | .list items => congrArg Json.array (serializeAll_json items)

theorem serializeAll_json : ∀ items : List Value, serializeAll .json items = toJsons items
  | [] => rfl
  | item :: rest => by rw [serializeAll, toJsons, serialize_json item, serializeAll_json rest]

end

mutual

theorem serialize_text : ∀ v : Value, v.serialize .text = v.toJson.chars
  | .null => rfl
  | .bool true => rfl
  | .bool false => rfl
  | .int _ => rfl
  | .float (.finite _) => rfl
  | .float (.infinite _) => rfl
  | .float .nan => rfl
  | .string _ => rfl
  | .list items => by
    rw [toJson, Json.chars, ← serializeAll_text items]
    rfl

theorem serializeAll_text : ∀ items : List Value,
    [','].intercalate (serializeAll .text items) = Json.itemChars (toJsons items)
  | [] => rfl
  | [item] => by
    rw [serializeAll, serializeAll, List.intercalate_singleton, toJsons, toJsons, Json.itemChars,
      serialize_text item]
  | item :: second :: rest => by
    have hothers := serializeAll_text (second :: rest)
    rw [serializeAll] at hothers
    rw [serializeAll, serializeAll, List.intercalate_cons_cons, hothers, serialize_text item,
      List.append_assoc]
    rfl

end

/-! ### Reading -/

def ofNull? : Json → Option Value
  | .null => some .null
  | _ => none

def ofBool? : Json → Option Value
  | .bool b => some (.bool b)
  | _ => none

/-- A number without a point that 64 bits hold with its sign. -/
def ofInt64? : Json → Option Value
  | .integer n _ =>
    if -0x8000000000000000 ≤ n ∧ n < 0x8000000000000000 then some (.int (Int64.ofInt n)) else none
  | _ => none

def ofNumber? : Json → Option Value
  | .integer n _ => some (.float (.ofInt n))
  | .float x => some (.float (.finite x))
  | _ => none

def ofString? : Json → Option Value
  | .string s => some (.string s)
  | _ => none

/-- The kinds of value other than lists, in the order in which they are tried. -/
def scalarKinds : List (Json → Option Value) := [ofNull?, ofBool?, ofInt64?, ofNumber?, ofString?]

mutual

/-- The first kind of value that takes the JSON. Lists come last. -/
def firstKind? : Json → Option Value
  | .array items =>
    (scalarKinds.findSome? (· (.array items))).or ((firstKinds? items).map .list)
  | j => scalarKinds.findSome? (· j)

def firstKinds? : List Json → Option (List Value)
  | [] => some []
  | item :: rest => do
    let value ← firstKind? item
    let values ← firstKinds? rest
    return value :: values

end

theorem firstKind?_integer (n : Int) (h : IntegerRange n) :
    firstKind? (.integer n h) = some (ofInteger n) := by
  unfold ofInteger
  by_cases hhigh : n < 0x8000000000000000
  · have hint : ofInt64? (.integer n h) = some (.int (Int64.ofInt n)) := if_pos ⟨h.1, hhigh⟩
    simp [firstKind?, scalarKinds, ofNull?, ofBool?, List.findSome?_cons, hint, hhigh]
  · -- An integer that is too large for the kind of integers is left to the kind after it.
    have hint : ofInt64? (.integer n h) = none := if_neg fun hboth => hhigh hboth.2
    simp [firstKind?, scalarKinds, ofNull?, ofBool?, ofNumber?, List.findSome?_cons, hint, hhigh]

mutual

/-- Reading takes the first kind that fits. -/
theorem ofJson?_eq : ∀ j : Json, ofJson? j = firstKind? j
  | .null => rfl
  | .bool _ => rfl
  | .integer n h => (firstKind?_integer n h).symm
  | .float _ => rfl
  | .string _ => rfl
  | .array items => by
    rw [ofJson?, ofJsons?_eq items]
    rfl
  | .object _ => rfl

theorem ofJsons?_eq : ∀ items : List Json, ofJsons? items = firstKinds? items
  | [] => rfl
  | item :: rest => by rw [ofJsons?, firstKinds?, ofJson?_eq item, ofJsons?_eq rest]

end

variable {v : Value}

theorem ofInteger_toInt (i : Int64) : ofInteger i.toInt = .int i := by
  have hhigh : i.toInt < 0x8000000000000000 := i.toInt_lt
  rw [ofInteger, if_pos hhigh, Int64.ofInt_toInt]

theorem ofJsons?_toJsons {items : List Value} (h : ∀ v ∈ items, ofJson? v.toJson = some v) :
    ofJsons? (toJsons items) = some items := by
  induction items with
  | nil => rfl
  | cons v items ih =>
    obtain ⟨hv, hitems⟩ := List.forall_mem_cons.mp h
    rw [toJsons, ofJsons?, hv, ih hitems]
    rfl

theorem Finite.ofJson?_toJson (hv : v.Finite) : ofJson? v.toJson = some v := by
  induction hv with
  | null => rfl
  | bool b => rfl
  | int i => exact congrArg some (ofInteger_toInt i)
  | float x => rfl
  | string s => rfl
  | list _ ih =>
    rw [toJson, ofJson?, ofJsons?_toJsons ih]
    rfl

theorem ofScalar?_toJson (h : ∀ items, v ≠ .list items) :
    ofScalar? v.toJson = ofJson? v.toJson := by
  cases v with
  | list items => exact absurd rfl (h items)
  | float x => cases x <;> rfl
  | null | bool | int | string => rfl

/-- The JSON form of a value with finite numbers is what a serializer makes of it, as a value and
as text. Trying the kinds in order reads it back as the same value of the same kind, and so does
reading a scalar unless the value is a list. -/
theorem json_read_back (hv : v.Finite) :
    v.serialize .json = v.toJson ∧ v.serialize .text = v.toJson.chars ∧
      firstKind? v.toJson = some v ∧ ofJson? v.toJson = some v ∧
      ((∀ items, v ≠ .list items) → ofScalar? v.toJson = some v) := by
  have hread := hv.ofJson?_toJson
  refine ⟨serialize_json v, serialize_text v, ?_, hread, fun hscalar => ?_⟩
  · rw [← ofJson?_eq, hread]
  · rw [ofScalar?_toJson hscalar, hread]

def pointedTwo : Finite64 := ⟨false, 0x10000000000000, -51, by decide⟩

/-- Two with and without a point, and further in a negative zero and the least integer. -/
def mixedNumbers : Value :=
  .list [.float (.finite pointedTwo), .int 2,
    .list [.float (.finite (.zero true)), .int Int64.minValue]]

theorem mixedNumbers_read_back :
    mixedNumbers.Finite ∧
      mixedNumbers.serialize .text = "[2.0,2,[-0.0,-9223372036854775808]]".toList ∧
      firstKind? mixedNumbers.toJson = some mixedNumbers ∧
      ofScalar? (.float pointedTwo) = some (.float (.finite pointedTwo)) := by
  have hfinite : mixedNumbers.Finite := by
    simp [mixedNumbers, finite_list, Finite.float, Finite.int]
  obtain ⟨-, htext, hread, -, -⟩ := json_read_back hfinite
  have hchars : mixedNumbers.toJson.chars = "[2.0,2,[-0.0,-9223372036854775808]]".toList := by
    decide +kernel
  obtain ⟨-, -, -, -, hscalar⟩ := json_read_back (Finite.float pointedTwo)
  exact ⟨hfinite, htext.trans hchars, hread, hscalar fun _ => nofun⟩

end Value

end FieldGraph
