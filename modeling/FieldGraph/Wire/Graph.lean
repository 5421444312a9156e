import FieldGraph.Graph.Basic
import FieldGraph.Wire.Record

/-!
# Graph data in JSON

How property maps, nodes, edges and directions are read and written.
-/
namespace FieldGraph

namespace PropertyMap

def ofFields? (fields : List (String × Json)) : Option PropertyMap :=
  (fields.mapM fun field => (Value.ofJson? field.2).map (field.1, ·)).map SortedMap.ofList

def ofJson? (j : Json) : Option PropertyMap := do
  let r ← Wire.recordFields? ["data"] j
  r.required "data" fun data => (Wire.object? data).bind ofFields?

def toJson (m : PropertyMap) : Json :=
  .object [("data", .object (m.entries.map fun (key, value) => (key, value.toJson)))]

end PropertyMap

def Direction.ofJson? (j : Json) : Option Direction :=
  Wire.choice? [("Outgoing", .outgoing), ("Incoming", .incoming), ("Both", .both)] j

def Direction.toJson (d : Direction) : Json := .string d.name

namespace Node

def ofJson? (j : Json) : Option Node := do
  let r ← Wire.recordFields? ["id", "label", "properties"] j
  let id ← r.required "id" Wire.nat?
  let label ← r.optional "label" (Wire.nullable Wire.string?)
  let properties ← r.required "properties" PropertyMap.ofJson?
  return ⟨id, label, properties⟩

def toJson (n : Node) : Json :=
  .object [("id", .ofNat n.id), ("label", Wire.nullableJson .string n.label),
    ("properties", PropertyMap.toJson n.properties)]

end Node

namespace Edge

def ofJson? (j : Json) : Option Edge := do
  let r ← Wire.recordFields? ["id", "source_id", "target_id", "edge_type"] j
  let id ← r.required "id" Wire.nat?
  let source ← r.required "source_id" Wire.nat?
  let target ← r.required "target_id" Wire.nat?
  let edgeType ← r.required "edge_type" Wire.string?
  return ⟨id, source, target, edgeType⟩

def toJson (e : Edge) : Json :=
  .object [("id", .ofNat e.id), ("source_id", .ofNat e.source), ("target_id", .ofNat e.target),
    ("edge_type", .string e.edgeType)]

end Edge

end FieldGraph
