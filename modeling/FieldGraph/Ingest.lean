import FieldGraph.Config.Basic
import FieldGraph.File
import FieldGraph.Store.Basic

/-!
# Ingestion

A document is compiled as a whole before the store sees any of it, and its batch is sent as one
statement.
-/
namespace FieldGraph

structure Import where
  nodes : Nat
  relationships : Nat
  stats : List String
  deriving DecidableEq, Repr

def Import.statements (i : Import) : Nat := i.nodes + i.relationships

structure IngestReport extends Import where
  elapsed : Duration
  deriving DecidableEq, Repr

inductive IngestOutcome where
  | imported (result : Import)
  /-- The graph held nodes before. -/
  | skipped (existingNodes : Nat)
  | noDataset
  deriving DecidableEq, Repr

def Batch.edgeCount (b : Batch) : Nat := b.mutations.toList.countP Mutation.isEdge

/-- Imports a document. A batch without statements is not sent. -/
def importDocument (store : Store σ) (rootLabel : String) (document : Json) : StoreM σ Import :=
  match compile rootLabel document with
  | .error fault => throw (.malformedDocument fault)
  | .ok batch => do
    let relationships := batch.edgeCount
    let nodes := batch.size - relationships
    if batch.isEmpty then return ⟨nodes, relationships, []⟩
    else
      let table ← store.execute batch.render
      return ⟨nodes, relationships, table.stats⟩

def importFile (store : Store σ) (rootLabel path : String) (content : FileContent) :
    StoreM σ Import := do
  match loadDocument path content with
  | .error e => throw e
  | .ok document => importDocument store rootLabel document

/-- Imports the configured document, if there is one, and if the graph is empty or need not be. -/
def ensureDataset (config : Config) (files : String → FileContent) (store : Store σ) :
    StoreM σ IngestOutcome :=
  match config.dataset with
  | none => return .noDataset
  | some path => do
    if config.ingestWhenEmpty then
      let existing ← store.countNodes
      if 0 < existing then return .skipped existing
    return .imported (← importFile store config.defaultLabel path (files path))

end FieldGraph
