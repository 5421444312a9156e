import FieldGraph.Statement.Query
import FieldGraph.Statement.Row

/-!
# Conditions

The value of an operand in a row, and the comparisons that a row has to pass. A comparison with
null never holds.
-/
namespace FieldGraph

def Operand.eval (g : Graph) (row : Row) : Operand → Evaluation Value
  | .literal value => .ok value
  | .id name => do
    match ← row.get name with
    | .node n => return .int (Int64.ofNat n)
    | .edge n => return .int (Int64.ofNat n)
  | .property name key => do
    match ← row.get name with
    | .node n => return ((g.node? n).bind (·.properties.get? key)).getD .null
    | .edge _ => return .null
  | .labels name => do
    match ← row.get name with
    | .node n => return .list (((g.node? n).bind Node.label).toList.map .string)
    | .edge _ => .fault (.labelsOfRelationship name)

def occursIn (part : List Char) : List Char → Bool
  | [] => part.isEmpty
  | c :: rest => part.isPrefixOf (c :: rest) || occursIn part rest

/-- Equality in conditions, where an integer equals the floating-point number nearest to it. -/
def Value.equals : Value → Value → Bool
  | .int a, .float b => (Binary64.ofInt a.toInt).same b
  | .float a, .int b => (Binary64.ofInt b.toInt).same a
  | a, b => a.same b

/-- Whether two values that are not null compare as asked. Containment is that of their texts. -/
def ComparisonOp.holds : ComparisonOp → Value → Value → Bool
  | .equals, left, right => left.equals right
  | .notEquals, left, right => !left.equals right
  | .contains, left, right => occursIn right.text.toList left.text.toList

def Comparison.passes (g : Graph) (row : Row) (c : Comparison) : Evaluation Bool := do
  let left ← c.left.eval g row
  let right ← c.right.eval g row
  return !left.isNull && !right.isNull && c.op.holds left right

/-- Whether a row passes all comparisons. They are tried in order, up to the first that fails. -/
def passesAll (g : Graph) (row : Row) : List Comparison → Evaluation Bool
  | [] => .ok true
  | c :: rest => do if ← c.passes g row then passesAll g row rest else return false

end FieldGraph
