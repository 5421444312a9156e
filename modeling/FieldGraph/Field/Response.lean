import FieldGraph.Json.Basic

/-!
# Responses

The data that was asked for, with a null in place of every field that failed, and the errors of
these fields with their places.
-/
namespace FieldGraph

inductive PathSegment where
  | key (name : String)
  | index (n : Nat)
  deriving DecidableEq, Repr

abbrev ResponsePath := List PathSegment

structure FieldError where
  message : String
  path : ResponsePath
  deriving DecidableEq, Repr

structure Response where
  data : Json
  errors : List FieldError

def PathSegment.toJson : PathSegment → Json
  | .key name => .string name
  | .index n => .ofNat n

def FieldError.toJson (e : FieldError) : Json :=
  .object [("message", .string e.message), ("path", .array (e.path.map PathSegment.toJson))]

/-- The response as JSON; errors are left out if there are none. -/
def Response.toJson (r : Response) : Json :=
  .object (("data", r.data) ::
    if r.errors.isEmpty then [] else [("errors", .array (r.errors.map FieldError.toJson))])

end FieldGraph
