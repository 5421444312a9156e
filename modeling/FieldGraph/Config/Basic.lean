import FieldGraph.Document.Compile
import FieldGraph.Duration
import FieldGraph.Json.Basic

/-!
# Configuration

The settings for ingestion and for access to a store.
-/
namespace FieldGraph

structure Config where
  graphName : String
  /-- The label of root objects. -/
  defaultLabel : String
  /-- How long a statement may take, if there is a limit. -/
  timeout : Option Duration
  /-- The file with the document to import, if there is one. -/
  dataset : Option String
  /-- Whether the document is imported only into a graph without nodes. -/
  ingestWhenEmpty : Bool
  deriving DecidableEq, Repr

def defaultGraphName : String := "docgraph"

structure Settings where
  graphName : Option String
  defaultLabel : Option String
  timeout : Option (Option Duration)
  dataset : Option (Option String)
  ingestWhenEmpty : Option Bool
  deriving DecidableEq, Repr

namespace Settings

def empty : Settings := ⟨none, none, none, none, none⟩

def toConfig (s : Settings) : Config where
  graphName := s.graphName.getD defaultGraphName
  defaultLabel := s.defaultLabel.getD FieldGraph.defaultLabel
  timeout := s.timeout.getD (some (.ofSeconds 30))
  dataset := s.dataset.getD none
  ingestWhenEmpty := s.ingestWhenEmpty.getD true

end Settings

def Config.default : Config := Settings.empty.toConfig

instance : Inhabited Config := ⟨Config.default⟩

inductive SettingKey where
  | graphName
  | defaultLabel
  | timeout
  | dataset
  | ingestWhenEmpty
  deriving DecidableEq, Repr

namespace SettingKey

def all : List SettingKey := [.graphName, .defaultLabel, .timeout, .dataset, .ingestWhenEmpty]

def name : SettingKey → String
  | .graphName => "graph_name"
  | .defaultLabel => "default_label"
  | .timeout => "statement_timeout"
  | .dataset => "dataset"
  | .ingestWhenEmpty => "ingest_when_empty"

def ofName? (name : String) : Option SettingKey := all.find? (·.name == name)

end SettingKey

namespace Settings

def has (s : Settings) : SettingKey → Bool
  | .graphName => s.graphName.isSome
  | .defaultLabel => s.defaultLabel.isSome
  | .timeout => s.timeout.isSome
  | .dataset => s.dataset.isSome
  | .ingestWhenEmpty => s.ingestWhenEmpty.isSome

/-- Adds a setting. It has to be of the right kind and may be given only once; a timeout is in
whole seconds. -/
def add? (s : Settings) (key : SettingKey) (value : Json) : Option Settings :=
  if s.has key then none
  else
    match key, value with
    | .graphName, .string name => some { s with graphName := some name }
    | .defaultLabel, .string label => some { s with defaultLabel := some label }
    | .timeout, .null => some { s with timeout := some none }
    | .timeout, .integer n _ =>
      if 0 ≤ n then some { s with timeout := some (some (.ofSeconds (UInt64.ofNat n.toNat))) }
      else none
    | .dataset, .null => some { s with dataset := some none }
    | .dataset, .string path => some { s with dataset := some (some path) }
    | .ingestWhenEmpty, .bool b => some { s with ingestWhenEmpty := some b }
    | _, _ => none

def addFields? (s : Settings) : List (String × Json) → Option Settings
  | [] => some s
  | (name, value) :: rest =>
    match SettingKey.ofName? name with
    | some key => (s.add? key value).bind (addFields? · rest)
    | none => addFields? s rest

def addItems? (s : Settings) : List SettingKey → List Json → Option Settings
  | _, [] => some s
  | [], _ :: _ => none
  | key :: keys, value :: rest => (s.add? key value).bind (addItems? · keys rest)

end Settings

namespace Config

def ofJson? : Json → Option Config
  | .object fields => (Settings.empty.addFields? fields).map Settings.toConfig
  | .array items => (Settings.empty.addItems? SettingKey.all items).map Settings.toConfig
  | _ => none

/-- The setting of a key as JSON; a timeout loses what is below a second. -/
def settingJson (c : Config) : SettingKey → Json
  | .graphName => .string c.graphName
  | .defaultLabel => .string c.defaultLabel
  | .timeout =>
    match c.timeout with
    | some limit => .ofNat limit.seconds.toNat
    | none => .null
  | .dataset =>
    match c.dataset with
    | some path => .string path
    | none => .null
  | .ingestWhenEmpty => .bool c.ingestWhenEmpty

def toJson (c : Config) : Json :=
  .object (SettingKey.all.map fun key => (key.name, c.settingJson key))

/-- A setting given by a caller. A dataset can be given but not taken back. -/
inductive Change where
  | graphName (name : String)
  | defaultLabel (label : String)
  | timeout (limit : Option Duration)
  | dataset (path : String)
  | ingestWhenEmpty (b : Bool)
  deriving DecidableEq, Repr

def change (c : Config) : Change → Config
  | .graphName name => { c with graphName := name }
  | .defaultLabel label => { c with defaultLabel := label }
  | .timeout limit => { c with timeout := limit }
  | .dataset path => { c with dataset := some path }
  | .ingestWhenEmpty b => { c with ingestWhenEmpty := b }

def changed (c : Config) (changes : List Change) : Config := changes.foldl change c

end Config

end FieldGraph
