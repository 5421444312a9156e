import FieldGraph.Statement.Filter

/-!
# Result tables

Without a count there is one result row for each row. With a count, rows with equal values in the
other columns form a group, and there is one result row for each group, in the order in which the
groups first occur.
-/
namespace FieldGraph

def ReturnItem.isCount (item : ReturnItem) : Bool :=
  match item.projection with
  | .count _ => true
  | .value _ => false

/-- The value of an item in a row; a count has none of its own, but its variable must be bound. -/
def ReturnItem.eval (g : Graph) (row : Row) (item : ReturnItem) : Evaluation (List Value) :=
  match item.projection with
  | .value operand => do return [← operand.eval g row]
  | .count name => do
    let _ ← row.get name
    return []

/-- Rows with the same values in the columns that are not counts, and their number. -/
structure Group where
  key : List Value
  size : Nat

def countInto (key : List Value) : List Group → List Group
  | [] => [⟨key, 1⟩]
  | group :: rest =>
    if Value.sameAll group.key key then { group with size := group.size + 1 } :: rest
    else group :: countInto key rest

/-- The groups of a list of rows, added to those before them. -/
def groupRows (g : Graph) (items : List ReturnItem) (groups : List Group) :
    List Row → Evaluation (List Group)
  | [] => .ok groups
  | row :: rest => do
    let key ← collect (ReturnItem.eval g row) items
    groupRows g items (countInto key groups) rest

def Group.cells (size : Nat) : List ReturnItem → List Value → List Value
  | [], _ => []
  | item :: items, key =>
    if item.isCount then .int (Int64.ofNat size) :: Group.cells size items key
    else key.headD .null :: Group.cells size items key.tail

/-- The result rows of a list of rows. If every column is a count there is always one of them. -/
def project (g : Graph) (items : List ReturnItem) (rows : List Row) :
    Evaluation (List (List Value)) := do
  if items.any ReturnItem.isCount then
    let groups ← groupRows g items [] rows
    let groups := if groups.isEmpty && items.all ReturnItem.isCount then [⟨[], 0⟩] else groups
    return groups.map fun group => Group.cells group.size items group.key
  else
    rows.mapM fun row => collect (ReturnItem.eval g row) items

end FieldGraph
