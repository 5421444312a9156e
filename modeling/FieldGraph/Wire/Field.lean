import FieldGraph.Field.Basic
import FieldGraph.Field.Resolver
import FieldGraph.Field.Response
import FieldGraph.Field.Selection
import FieldGraph.Wire.Record

/-!
# Queries and responses in JSON

How node references, selections and responses are read and written.
-/
namespace FieldGraph

def Multiplicity.ofJson? (j : Json) : Option Multiplicity :=
  Wire.choice? [("Single", .single), ("Many", .many)] j

def Multiplicity.toJson (m : Multiplicity) : Json := .string m.name

namespace NodeRef

def ofJson? (j : Json) : Option NodeRef := do
  let r ← Wire.recordFields? ["id", "type_name"] j
  let id ← r.required "id" Wire.nat?
  let typeName ← r.optional "type_name" (Wire.nullable Wire.string?)
  return ⟨id, typeName⟩

def toJson (r : NodeRef) : Json :=
  .object [("id", .ofNat r.id), ("type_name", Wire.nullableJson .string r.typeName)]

end NodeRef

namespace Selection

def ofFields? (r : Wire.RecordFields) (selections : List Selection) : Option Selection := do
  let name ← r.required "name" Wire.string?
  let shownAs ← r.withDefault "alias" none (Wire.nullable Wire.string?)
  let arguments ← r.withDefault "arguments" [] Wire.object?
  return ⟨name, shownAs, arguments, selections⟩

def fieldNames : List String := ["name", "alias", "arguments", "selections"]

mutual

def ofJson? : Json → Option Selection
  | .object fields => do
    let r ← Wire.recordFields? fieldNames (.object fields)
    ofFields? r (← belowFields? fields)
  | .array items => do
    let r ← Wire.recordFields? fieldNames (.array items)
    ofFields? r (← belowItems? 3 items)
  | _ => none

def ofJsons? : List Json → Option (List Selection)
  | [] => some []
  | item :: rest => do
    let selection ← ofJson? item
    let selections ← ofJsons? rest
    return selection :: selections

def below? : Json → Option (List Selection)
  | .array items => ofJsons? items
  | _ => none

def belowFields? : List (String × Json) → Option (List Selection)
  | [] => some []
  | (key, value) :: rest => if key = "selections" then below? value else belowFields? rest

/-- The selections below one that is given as an array, after passing over `n` items. -/
def belowItems? : Nat → List Json → Option (List Selection)
  | _, [] => some []
  | 0, value :: _ => below? value
  | n + 1, _ :: rest => belowItems? n rest

end

mutual

def toJson : Selection → Json
  | ⟨name, shownAs, arguments, selections⟩ =>
    .object [("name", .string name), ("alias", Wire.nullableJson .string shownAs),
      ("arguments", .object arguments), ("selections", .array (toJsons selections))]

def toJsons : List Selection → List Json
  | [] => []
  | s :: rest => toJson s :: toJsons rest

end

end Selection

def PathSegment.ofJson? : Json → Option PathSegment
  | .string name => some (.key name)
  | value => (Wire.nat? value).map .index

def FieldError.ofJson? (j : Json) : Option FieldError := do
  let r ← Wire.recordFields? ["message", "path"] j
  let message ← r.required "message" Wire.string?
  let path ← r.required "path" (Wire.list? PathSegment.ofJson?)
  return ⟨message, path⟩

def Response.ofJson? (j : Json) : Option Response := do
  let r ← Wire.recordFields? ["data", "errors"] j
  let data ← r.required "data" some
  let errors ← r.withDefault "errors" [] (Wire.list? FieldError.ofJson?)
  return ⟨data, errors⟩

end FieldGraph
