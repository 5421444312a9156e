import FieldGraph.Ingest
import FieldGraph.Store.Basic
import FieldGraph.Wire.Record

/-!
# Store answers and reports in JSON

How tables, durations and reports of imports are read and written.
-/
namespace FieldGraph

namespace Table

def ofJson? (j : Json) : Option Table := do
  let r ← Wire.recordFields? ["columns", "rows", "stats"] j
  let columns ← r.required "columns" (Wire.list? Wire.string?)
  let rows ← r.required "rows" (Wire.list? (Wire.list? Value.ofJson?))
  let stats ← r.required "stats" (Wire.list? Wire.string?)
  return ⟨columns, rows, stats⟩

def toJson (t : Table) : Json :=
  .object [("columns", .array (t.columns.map .string)),
    ("rows", .array (t.rows.map fun row => .array (row.map Value.toJson))),
    ("stats", .array (t.stats.map .string))]

end Table

namespace Duration

def hasOnly (names : List String) : Json → Bool
  | .object fields => fields.all fun (key, _) => key ∈ names
  | _ => true

/-- The duration of the given seconds and nanoseconds, of which there may be more than a second
holds; none if the seconds exceed 64 bits. -/
def carry? (seconds nanoseconds : Nat) : Option Duration :=
  let total := seconds + nanoseconds / 1000000000
  if total < 0x10000000000000000 then
    some ⟨UInt64.ofNat total, nanoseconds % 1000000000, Nat.mod_lt _ (by decide)⟩
  else none

def nanoseconds? (j : Json) : Option Nat := do
  let n ← Wire.nat? j
  if n < 0x100000000 then some n else none

def ofJson? (j : Json) : Option Duration := do
  let r ← Wire.recordFields? ["secs", "nanos"] j
  let seconds ← r.required "secs" Wire.nat?
  let nanoseconds ← r.required "nanos" nanoseconds?
  if hasOnly ["secs", "nanos"] j then carry? seconds nanoseconds else none

def toJson (d : Duration) : Json :=
  .object [("secs", .ofNat d.seconds.toNat), ("nanos", .ofNat d.nanoseconds)]

end Duration

namespace IngestReport

def ofJson? (j : Json) : Option IngestReport := do
  let r ← Wire.recordFields? ["nodes", "relationships", "store_stats", "elapsed"] j
  let nodes ← r.required "nodes" Wire.nat?
  let relationships ← r.required "relationships" Wire.nat?
  let stats ← r.required "store_stats" (Wire.list? Wire.string?)
  let elapsed ← r.required "elapsed" Duration.ofJson?
  return ⟨⟨nodes, relationships, stats⟩, elapsed⟩

def toJson (r : IngestReport) : Json :=
  .object [("nodes", .ofNat r.nodes), ("relationships", .ofNat r.relationships),
    ("store_stats", .array (r.stats.map .string)), ("elapsed", r.elapsed.toJson)]

end IngestReport

end FieldGraph
