import FieldGraph.SortedMap
import FieldGraph.Value.Basic

/-!
# Property maps

The properties of a node: values under distinct keys, in ascending order of keys.
-/
namespace FieldGraph

abbrev PropertyMap := SortedMap Value

namespace PropertyMap

def includes (m other : PropertyMap) : Bool :=
  other.entries.all fun (key, value) => (m.get? key).any (·.same value)

def same (m other : PropertyMap) : Bool := m.size == other.size && includes m other

def string? (m : PropertyMap) (key : String) : Option String := (m.get? key).bind Value.string?

def int? (m : PropertyMap) (key : String) : Option Int64 :=
  match m.get? key with
  | some (.int i) => some i
  | _ => none

def bool? (m : PropertyMap) (key : String) : Option Bool :=
  match m.get? key with
  | some (.bool b) => some b
  | _ => none

end PropertyMap

end FieldGraph
