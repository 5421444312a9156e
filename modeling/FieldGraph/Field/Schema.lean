import FieldGraph.Field.Fault
import FieldGraph.SortedMap

/-!
# Schemas

The types that can be queried, and how each of their fields is resolved.
-/
namespace FieldGraph

structure FieldDef where
  name : String
  fieldType : FieldType
  resolver : Resolver
  /-- Arguments that hold unless a selection gives others. -/
  defaults : List (String × Json)

def FieldDef.scalar (name : String) (resolver : Resolver) : FieldDef :=
  ⟨name, .scalar, resolver, []⟩

def FieldDef.object (name typeName : String) (resolver : Resolver) : FieldDef :=
  ⟨name, .object typeName, resolver, []⟩

def FieldDef.list (name typeName : String) (resolver : Resolver) : FieldDef :=
  ⟨name, .list typeName, resolver, []⟩

/-- The arguments of a selection together with the defaults that it does not give. -/
def FieldDef.arguments (f : FieldDef) (given : List (String × Json)) : List (String × Json) :=
  Json.overlay f.defaults given

def FieldDef.inspect (f : FieldDef) : String :=
  Text.record "FieldDef" [("name", Text.quoted f.name), ("field_type", f.fieldType.inspect),
    ("resolver", f.resolver.inspect), ("defaults", Json.inspectObject f.defaults)]

inductive TypeDef where
  | object (name : String) (fields : List FieldDef)
  /-- A node of one of several object types. -/
  | union (name : String) (members : List String)

def TypeDef.name : TypeDef → String
  | .object name _ => name
  | .union name _ => name

def TypeDef.inspect : TypeDef → String
  | .object name fields =>
    Text.record "Object" [("name", Text.quoted name),
      ("fields", Text.listing (fields.map FieldDef.inspect))]
  | .union name members =>
    Text.record "Union" [("name", Text.quoted name),
      ("members", Text.listing (members.map Text.quoted))]

structure Schema where
  types : SortedMap TypeDef

namespace Schema

def empty : Schema := ⟨.empty⟩

def register (s : Schema) (t : TypeDef) : Schema := ⟨s.types.insert t.name t⟩

def ofTypes (types : List TypeDef) : Schema := types.foldl register empty

def type? (s : Schema) (name : String) : Option TypeDef := s.types.get? name

def field (s : Schema) (typeName field : String) : Except FieldFault FieldDef :=
  match s.type? typeName with
  | some (.object _ fields) =>
    match fields.find? (·.name == field) with
    | some f => .ok f
    | none => .error (.unknownField field typeName)
  | some (.union _ _) => .error (.fieldOfUnion field typeName)
  | none => .error (.unknownType typeName)

/-- The object type of a node that is declared to be of a type. For a union it is the type that
the reference names, which has to be a member. -/
def concreteType (s : Schema) (declared : String) (node : NodeRef) : Except FieldFault String :=
  match s.type? declared with
  | some (.object _ _) => .ok declared
  | some (.union _ members) =>
    match node.typeName with
    | some name => if name ∈ members then .ok name else .error (.unresolvedUnion declared node)
    | none => .error (.unresolvedUnion declared node)
  | none => .error (.unknownType declared)

def inspect (s : Schema) : String :=
  let types := s.types.entries.map fun (name, t) => Text.quoted name ++ ": " ++ t.inspect
  Text.record "Schema" [("types", "\x7b" ++ ", ".intercalate types ++ "\x7d")]

def inspectExecutor (s : Schema) : String := "Executor \x7b schema: " ++ s.inspect ++ ", .. \x7d"

end Schema

end FieldGraph
