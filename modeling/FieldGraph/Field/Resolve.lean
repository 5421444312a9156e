import FieldGraph.Field.Fault
import FieldGraph.Search.Basic
import FieldGraph.Store.Basic

/-!
# Resolving a field

A resolver sends at most one statement for a field of a node, and reads its answer from the first
columns of the table. Nothing found is an answer too.
-/
namespace FieldGraph

abbrev Arguments := List (String × Json)

def keywordsArgument : String := "keywords"

namespace Resolver

def requireSource (r : Resolver) : Option NodeRef → Except FieldFault NodeRef
  | some node => .ok node
  | none => .error (.needsSource r)

/-- The search text among the arguments; it is empty if there is none. -/
def keywords (arguments : Arguments) : Except FieldFault String :=
  match arguments.lookup keywordsArgument with
  | none => .ok ""
  | some .null => .ok ""
  | some (.string text) => .ok text
  | some other => .error (.keywordsNotText other)

def tagText : Option String → String
  | some name => ":" ++ name
  | none => ""

/-- The statement that the resolver sends; the number of the source needs none. -/
def statement (r : Resolver) (source : Option NodeRef) (arguments : Arguments) :
    Except FieldFault (Option String) :=
  match r with
  | .identity => .ok none
  | .property field => do
    let node ← requireSource r source
    return some ("MATCH (n) WHERE id(n)=" ++ natText node.id ++ " RETURN n." ++ field)
  | .relation _ edgeType direction targetLabel => do
    let node ← requireSource r source
    return some ("MATCH (n)" ++ direction.leftArrow ++ "-[" ++ tagText edgeType ++ "]-" ++
      direction.rightArrow ++ "(r" ++ tagText targetLabel ++ ") WHERE id(n)=" ++ natText node.id ++
      " RETURN id(r)")
  | .search => do
    let text ← keywords arguments
    return some ("MATCH (n) " ++ (Search.parse text).clause ++ " RETURN id(n),labels(n)")
  | .collection label => .ok (some ("MATCH (n:" ++ label ++ ") RETURN id(n)"))

def nodeOf? (cell : Value) : Option NodeRef :=
  match cell.int? with
  | some i => if 0 ≤ i.toInt then some ⟨i.toInt.toNat, none⟩ else none
  | none => none

def labelOf? : Value → Option String
  | .list labels => labels.head?.bind Value.string?
  | .string label => some label
  | _ => none

/-- The node that a row of a search refers to, with its label as its type. -/
def foundNode? : List Value → Option NodeRef
  | [] => none
  | cell :: rest => (nodeOf? cell).map fun node => ⟨node.id, rest.head?.bind labelOf?⟩

def read (r : Resolver) (table : Table) : Resolved :=
  match r with
  | .identity => .scalar (table.firstValue?.getD .null)
  | .property _ => .scalar (table.firstValue?.getD .null)
  | .relation .single _ _ _ => .reference (table.firstColumn.filterMap nodeOf?).head?
  | .relation .many _ _ _ => .references (table.firstColumn.filterMap nodeOf?)
  | .collection _ => .references (table.firstColumn.filterMap nodeOf?)
  | .search => .references (table.rows.filterMap foundNode?)

def refuse (fault : FieldFault) : StoreM σ α := throw (.invalidOperation (.field fault))

def resolve (r : Resolver) (store : Store σ) (source : Option NodeRef) (arguments : Arguments) :
    StoreM σ Resolved :=
  match r.statement source arguments with
  | .error fault => refuse fault
  | .ok (some text) => do
    let table ← store.execute text
    return r.read table
  | .ok none =>
    match requireSource r source with
    | .error fault => refuse fault
    | .ok node => return .scalar (.ofNat node.id)

end Resolver

end FieldGraph
