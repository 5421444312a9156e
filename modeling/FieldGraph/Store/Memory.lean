import FieldGraph.Statement.Parser
import FieldGraph.Statement.Run
import FieldGraph.Store.Basic

/-!
# The store in memory

A store that holds a graph and runs statements on it. A statement that only reads never changes
the graph, and one that fails leaves it as it was.
-/
namespace FieldGraph

def QueryTable.answer (t : QueryTable) (counters : Counters) : Table :=
  ⟨t.columns, t.rows, counters.lines⟩

def Graph.runText (g : Graph) (statement : String) : Except GraphError (Table × Graph) :=
  match Script.parse statement with
  | .error e => .error (.statement e)
  | .ok script =>
    let access := if script.isReadOnly then Access.read else Access.write
    match script.run access g with
    | .error cause => .error (.invalidOperation cause)
    | .ok (draft, table) =>
      let next := if script.isReadOnly then g else draft.graph
      .ok (table.answer draft.counters, next)

def memoryStore : Store Graph where
  submit statement g :=
    match g.runText statement with
    | .ok (table, next) => (.answered table, next)
    | .error e => (.failed e, g)

end FieldGraph
