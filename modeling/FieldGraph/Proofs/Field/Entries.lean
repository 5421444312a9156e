import FieldGraph.Proofs.Field.Related
import FieldGraph.Proofs.Field.Responses

/-!
# What an answer costs

Every entry of an object in a response stands for one selected field of one node. It costs one
statement if its resolver can put one, and none otherwise, so the statements that an execution
sends are those of the entries that it tells, in their order.
-/
namespace FieldGraph

variable {σ α β : Type} {schema : Schema} {store : Store σ}

/-- An entry of an object of a response: a selected field of a type, resolved for a source. -/
structure Entry where
  path : ResponsePath
  typeName : String
  source : Option NodeRef
  selection : Selection

def Resolver.Accepts (source : Option NodeRef) (arguments : Arguments) : Resolver → Prop
  | .identity => source.isSome
  | .property _ => source.isSome
  | .relation _ _ _ _ => source.isSome
  | .search => ∀ got, arguments.lookup keywordsArgument = some got →
      got = .null ∨ ∃ text, got = .string text
  | .collection _ => True

def Resolver.sent? (r : Resolver) (source : Option NodeRef) (arguments : Arguments) :
    Option String :=
  match r.statement source arguments with
  | .error _ => none
  | .ok sent => sent

namespace Entry

/-- The entry names a field of its type, whose resolver has something to ask for and accepts the
source and the arguments. -/
def Costs (schema : Schema) (e : Entry) : Prop :=
  e.selection.name ≠ typenameField ∧
    ∃ field, schema.field e.typeName e.selection.name = .ok field ∧ field.resolver ≠ .identity ∧
      field.resolver.Accepts e.source (field.arguments e.selection.arguments)

def statement? (schema : Schema) (e : Entry) : Option String :=
  if e.selection.name = typenameField then none
  else
    match schema.field e.typeName e.selection.name with
    | .error _ => none
    | .ok field => field.resolver.sent? e.source (field.arguments e.selection.arguments)

end Entry

theorem Resolver.keywords_ok_iff {arguments : Arguments} :
    (∃ text, keywords arguments = .ok text) ↔
      ∀ got, arguments.lookup keywordsArgument = some got →
        got = .null ∨ ∃ text, got = .string text := by
  unfold keywords
  cases hgot : arguments.lookup keywordsArgument with
  | none => simp
  | some got => cases got <;> simp

/-- A resolver sends a statement about what it accepts, unless it only needs the source itself. -/
theorem Resolver.sent_isSome_iff {r : Resolver} {source : Option NodeRef} {arguments : Arguments} :
    (r.sent? source arguments).isSome ↔ r ≠ .identity ∧ r.Accepts source arguments := by
  cases r with
  | identity => simp [sent?, statement]
  | property field => cases source <;> simp [sent?, statement, requireSource, Accepts]
  | relation multiplicity edgeType direction targetLabel =>
    cases source <;> simp [sent?, statement, requireSource, Accepts]
  | search =>
    rw [Accepts, ← keywords_ok_iff]
    cases hkeywords : keywords arguments with
    | error fault => simp [sent?, statement, hkeywords]
    | ok text => simp [sent?, statement, hkeywords]
  | collection label => simp [sent?, statement, Accepts]

theorem Entry.statement_isSome_iff {e : Entry} : (e.statement? schema).isSome ↔ e.Costs schema := by
  unfold statement? Costs
  by_cases hname : e.selection.name = typenameField
  · simp [hname]
  · cases schema.field e.typeName e.selection.name with
    | error fault => simp [hname]
    | ok field => simp [hname, Resolver.sent_isSome_iff]

instance (schema : Schema) (e : Entry) : Decidable (e.Costs schema) :=
  decidable_of_iff _ Entry.statement_isSome_iff

/-! ### The entries of an execution -/

def visitNode (schema : Schema) (s : Selection) (declared : String) (node : NodeRef)
    (fieldsOf : String → StateM σ (List (String × Finding) × List Entry)) :
    StateM σ (Finding × List Entry) :=
  match nodeType schema s declared node with
  | .error fault => return (.failed (.invalidOperation (.field fault)), [])
  | .ok concrete => do
    let (fields, entries) ← fieldsOf concrete
    return (.object fields, entries)

def visitNodes (f : Nat → NodeRef → StateM σ (Finding × List Entry)) (start : Nat) :
    List NodeRef → StateM σ (List Finding × List Entry)
  | [] => return ([], [])
  | node :: rest => do
    let (finding, entries) ← f start node
    let (findings, others) ← visitNodes f (start + 1) rest
    return (finding :: findings, entries ++ others)

mutual

/-- What is found at a selected field of a type, with the entries below it. -/
def visitField (schema : Schema) (store : Store σ) (typeName : String)
    (source : Option NodeRef) (path : ResponsePath) : Selection → StateM σ (Finding × List Entry)
  | ⟨name, shownAs, arguments, selections⟩ => do
    match ← resolveField schema store typeName source ⟨name, shownAs, arguments, selections⟩ with
    | .typeName => return (.typeName typeName, [])
    | .failed e => return (.failed e, [])
    | .scalar value => return (.scalar value, [])
    | .absent => return (.absent, [])
    | .single declared node =>
      visitNode schema ⟨name, shownAs, arguments, selections⟩ declared node fun concrete =>
        visitFields schema store concrete (some node) path selections
    | .many declared nodes => do
      let visit := fun i node =>
        visitNode schema ⟨name, shownAs, arguments, selections⟩ declared node fun concrete =>
          visitFields schema store concrete (some node) (path ++ [.index i]) selections
      let (items, entries) ← visitNodes visit 0 nodes
      return (.list items, entries)

def visitFields (schema : Schema) (store : Store σ) (typeName : String)
    (source : Option NodeRef) (path : ResponsePath) :
    List Selection → StateM σ (List (String × Finding) × List Entry)
  | [] => return ([], [])
  | s :: rest => do
    let place := path ++ [.key s.responseKey]
    let (finding, entries) ← visitField schema store typeName source place s
    let (findings, others) ← visitFields schema store typeName source path rest
    return ((s.responseKey, finding) :: findings,
      ⟨place, typeName, source, s⟩ :: (entries ++ others))

end

def visit (schema : Schema) (store : Store σ) (selections : List Selection) :
    StateM σ (Finding × List Entry) := do
  let (fields, entries) ← visitFields schema store Schema.queryType none [] selections
  return (.object fields, entries)

def Entry.statements (schema : Schema) (entries : List Entry) : List String :=
  entries.filterMap (Entry.statement? schema)

mutual

def Json.entryPaths (path : ResponsePath) : Json → List ResponsePath
  | .object fields => fieldPaths path fields
  | .array items => itemPaths path 0 items
  | _ => []

def Json.fieldPaths (path : ResponsePath) : List (String × Json) → List ResponsePath
  | [] => []
  | (key, value) :: rest =>
    (path ++ [.key key]) :: (value.entryPaths (path ++ [.key key]) ++ fieldPaths path rest)

def Json.itemPaths (path : ResponsePath) (start : Nat) : List Json → List ResponsePath
  | [] => []
  | value :: rest =>
    value.entryPaths (path ++ [.index start]) ++ itemPaths path (start + 1) rest

end

/-! ### Visiting finds what an execution finds -/

theorem visitNode_finding {s : Selection} {declared : String} {node : NodeRef}
    {fieldsOf : String → StateM σ (List (String × Finding))}
    {visited : String → StateM σ (List (String × Finding) × List Entry)}
    (h : ∀ concrete, Prod.fst <$> visited concrete = fieldsOf concrete) :
    Prod.fst <$> visitNode schema s declared node visited =
      exploreNode schema s declared node fieldsOf := by
  unfold visitNode exploreNode
  cases nodeType schema s declared node with
  | error fault => rfl
  | ok concrete =>
    dsimp only
    rw [← h]
    simp only [map_bind, map_pure, bind_map_left]

theorem visitNodes_findings {f : Nat → NodeRef → StateM σ (Finding × List Entry)}
    {g : NodeRef → StateM σ Finding} (h : ∀ i node, Prod.fst <$> f i node = g node) (start : Nat)
    (nodes : List NodeRef) : Prod.fst <$> visitNodes f start nodes = nodes.mapM g := by
  induction nodes generalizing start with
  | nil => rfl
  | cons node nodes ih =>
    rw [visitNodes, List.mapM_cons, ← h start, ← ih (start + 1)]
    simp only [map_bind, map_pure, bind_map_left]

theorem visitFields_findings {selections : List Selection}
    (each : ∀ s ∈ selections, ∀ typeName source path,
      Prod.fst <$> visitField schema store typeName source path s =
        exploreField schema store typeName source s)
    (typeName : String) (source : Option NodeRef) (path : ResponsePath) :
    Prod.fst <$> visitFields schema store typeName source path selections =
      exploreFields schema store typeName source selections := by
  induction selections with
  | nil => rfl
  | cons s selections ih =>
    have hrest := ih fun other hother => each other (List.mem_cons_of_mem _ hother)
    rw [visitFields, exploreFields,
      ← each s List.mem_cons_self typeName source (path ++ [.key s.responseKey]), ← hrest]
    simp only [map_bind, map_pure, bind_map_left]

theorem visitField_finding (s : Selection) (typeName : String) (source : Option NodeRef)
    (path : ResponsePath) :
    Prod.fst <$> visitField schema store typeName source path s =
      exploreField schema store typeName source s := by
  induction s using Selection.induction generalizing typeName source path with
  | below s ih =>
    have hnode : ∀ declared node path,
        Prod.fst <$> visitNode schema s declared node (fun concrete =>
          visitFields schema store concrete (some node) path s.selections) =
        exploreNode schema s declared node fun concrete =>
          exploreFields schema store concrete (some node) s.selections :=
      fun _ node path => visitNode_finding fun concrete => visitFields_findings ih concrete _ path
    obtain ⟨name, shownAs, arguments, selections⟩ := s
    rw [visitField, exploreField, map_bind]
    apply bind_congr
    intro resolution
    cases resolution with
    | typeName => rfl
    | failed e => rfl
    | scalar value => rfl
    | absent => rfl
    | single declared node => exact hnode declared node path
    | many declared nodes =>
      have hnodes := visitNodes_findings
        (fun i node => hnode declared node (path ++ [.index i])) 0 nodes
      dsimp only at hnodes ⊢
      rw [← hnodes]
      simp only [map_bind, map_pure, bind_map_left]

theorem visit_finding (selections : List Selection) :
    Prod.fst <$> visit schema store selections = explore schema store selections := by
  rw [visit, explore,
    ← visitFields_findings (fun s _ => visitField_finding s) Schema.queryType none []]
  simp only [map_bind, map_pure, bind_map_left]

/-! ### Every entry sends its statement -/

/-- On a store with a list of what it was given and on the store itself both computations come to
the same. If the list starts with the first statements, it ends with what the result tells. -/
def Sends (before : List String) (after : α → List String) (m : StateM (σ × List String) α)
    (n : StateM σ α) : Prop :=
  ∀ a issued, m (a, issued ++ before) = ((n a).1, (n a).2, issued ++ after (n a).1)

namespace Sends

variable {before : List String} {after : α → List String} {m : StateM (σ × List String) α}
  {n : StateM σ α}

theorem pure {x : α} (h : before = after x) :
    Sends before after (pure x : StateM (σ × List String) α) (pure x) := by
  intro a issued
  rw [h]
  rfl

theorem bind {f : α → StateM (σ × List String) β} {g : α → StateM σ β} {last : β → List String}
    (hm : Sends before after m n) (hf : ∀ x, Sends (after x) last (f x) (g x)) :
    Sends before last (m >>= f) (n >>= g) := by
  intro a issued
  show f (m (a, issued ++ before)).1 (m (a, issued ++ before)).2 = _
  rw [hm]
  exact hf _ _ issued

theorem frame (hm : Sends [] after m n) (before : List String) :
    Sends before (fun x => before ++ after x) m n := by
  intro a issued
  have hrun := hm a (issued ++ before)
  rwa [List.append_nil, List.append_assoc] at hrun

end Sends

theorem resolve_sends (store : Store σ) (r : Resolver) (source : Option NodeRef)
    (arguments : Arguments) :
    Sends [] (fun _ => (r.sent? source arguments).toList)
      (r.resolve store.recording source arguments) (r.resolve store source arguments) := by
  unfold Resolver.resolve Resolver.sent?
  cases r.statement source arguments with
  | error fault => exact .pure rfl
  | ok sent =>
    cases sent with
    | none =>
      dsimp only
      cases r.requireSource source with
      | error fault => exact .pure rfl
      | ok node => exact .pure rfl
    | some text =>
      have hexecute : Sends [] (fun _ => [text]) (store.recording.execute text).run
          (store.execute text).run := by
        intro a issued
        rw [List.append_nil]
        exact store.execute_recording text a issued
      show Sends [] (fun _ => [text]) ((store.recording.execute text).run >>= ExceptT.bindCont _)
        ((store.execute text).run >>= ExceptT.bindCont _)
      refine Sends.bind hexecute fun result => ?_
      cases result with
      | error e => exact .pure rfl
      | ok table => exact .pure rfl

theorem resolveField_sends (store : Store σ) (typeName : String) (source : Option NodeRef)
    (path : ResponsePath) (s : Selection) :
    Sends [] (fun _ => (Entry.statement? schema ⟨path, typeName, source, s⟩).toList)
      (resolveField schema store.recording typeName source s)
      (resolveField schema store typeName source s) := by
  unfold resolveField Entry.statement?
  by_cases hname : s.name = typenameField
  · simp only [hname, if_true]
    exact .pure rfl
  · simp only [hname, if_false]
    cases schema.field typeName s.name with
    | error fault => exact .pure rfl
    | ok field =>
      have hresolve : Sends [] _ (field.resolver.resolve store.recording source _).run
          (field.resolver.resolve store source _).run :=
        resolve_sends store field.resolver source (field.arguments s.arguments)
      refine Sends.bind hresolve fun result => ?_
      cases result with
      | error e => exact .pure rfl
      | ok resolved => exact .pure rfl

/-- All statements that are sent are those of the entries that the result tells. -/
def SendsEntries (schema : Schema) : StateM (σ × List String) (α × List Entry) →
    StateM σ (α × List Entry) → Prop :=
  Sends [] fun result => Entry.statements schema result.2

theorem visitNode_sends {s : Selection} {declared : String} {node : NodeRef}
    {recorded : String → StateM (σ × List String) (List (String × Finding) × List Entry)}
    {plain : String → StateM σ (List (String × Finding) × List Entry)}
    (h : ∀ concrete, SendsEntries schema (recorded concrete) (plain concrete)) :
    SendsEntries schema (visitNode schema s declared node recorded)
      (visitNode schema s declared node plain) := by
  unfold visitNode
  cases nodeType schema s declared node with
  | error fault => exact Sends.pure rfl
  | ok concrete => exact Sends.bind (h concrete) fun _ => .pure rfl

theorem visitNodes_sends {f : Nat → NodeRef → StateM (σ × List String) (Finding × List Entry)}
    {g : Nat → NodeRef → StateM σ (Finding × List Entry)}
    (h : ∀ i node, SendsEntries schema (f i node) (g i node)) (start : Nat)
    (nodes : List NodeRef) :
    SendsEntries schema (visitNodes f start nodes) (visitNodes g start nodes) := by
  induction nodes generalizing start with
  | nil => exact Sends.pure rfl
  | cons node nodes ih =>
    refine Sends.bind (h start node) fun first => ?_
    refine Sends.bind ((ih (start + 1)).frame _) fun others => ?_
    exact .pure List.filterMap_append.symm

theorem visitFields_sends {selections : List Selection}
    (each : ∀ s ∈ selections, ∀ typeName source path,
      Sends [] (fun result => Entry.statements schema (⟨path, typeName, source, s⟩ :: result.2))
        (visitField schema store.recording typeName source path s)
        (visitField schema store typeName source path s))
    (typeName : String) (source : Option NodeRef) (path : ResponsePath) :
    SendsEntries schema (visitFields schema store.recording typeName source path selections)
      (visitFields schema store typeName source path selections) := by
  induction selections with
  | nil => exact Sends.pure rfl
  | cons s selections ih =>
    have hrest := ih fun other hother => each other (List.mem_cons_of_mem _ hother)
    have hfirst := each s List.mem_cons_self typeName source (path ++ [.key s.responseKey])
    refine Sends.bind hfirst fun first => ?_
    refine Sends.bind (hrest.frame _) fun others => ?_
    refine .pure ?_
    rw [Entry.statements, Entry.statements, ← List.filterMap_append, List.cons_append]
    rfl

theorem visitField_sends (s : Selection) (typeName : String) (source : Option NodeRef)
    (path : ResponsePath) :
    Sends [] (fun result => Entry.statements schema (⟨path, typeName, source, s⟩ :: result.2))
      (visitField schema store.recording typeName source path s)
      (visitField schema store typeName source path s) := by
  induction s using Selection.induction generalizing typeName source path with
  | below s ih =>
    have hnode : ∀ declared node path, SendsEntries schema
        (visitNode schema s declared node fun concrete =>
          visitFields schema store.recording concrete (some node) path s.selections)
        (visitNode schema s declared node fun concrete =>
          visitFields schema store concrete (some node) path s.selections) :=
      fun _ node path => visitNode_sends fun concrete => visitFields_sends ih concrete _ path
    have hown := @resolveField_sends σ schema store typeName source path s
    have hall : ∀ below, Entry.statements schema (⟨path, typeName, source, s⟩ :: below) =
        (Entry.statement? schema ⟨path, typeName, source, s⟩).toList ++
          Entry.statements schema below := by
      intro below
      unfold Entry.statements
      rw [List.filterMap_cons]
      cases Entry.statement? schema ⟨path, typeName, source, s⟩ <;> rfl
    simp only [hall]
    obtain ⟨name, shownAs, arguments, selections⟩ := s
    rw [visitField, visitField]
    refine Sends.bind hown fun resolution => ?_
    cases resolution with
    | typeName => exact .pure (List.append_nil _).symm
    | failed e => exact .pure (List.append_nil _).symm
    | scalar value => exact .pure (List.append_nil _).symm
    | absent => exact .pure (List.append_nil _).symm
    | single declared node => exact (hnode declared node path).frame _
    | many declared nodes =>
      refine Sends.bind ((visitNodes_sends (fun i node => hnode declared node _) 0 nodes).frame _)
        fun items => ?_
      exact .pure rfl

theorem visit_sends (selections : List Selection) :
    SendsEntries schema (visit schema store.recording selections)
      (visit schema store selections) :=
  Sends.bind (visitFields_sends (fun s _ => visitField_sends s) Schema.queryType none [])
    fun _ => .pure rfl

/-! ### The entries of a visit are those of the data -/

mutual

/-- No value of a graph has an object in it. -/
theorem Value.entryPaths_toJson (v : Value) (path : ResponsePath) :
    v.toJson.entryPaths path = [] := by
  cases v with
  | null => rfl
  | bool b => rfl
  | int i => rfl
  | float x => cases x <;> rfl
  | string s => rfl
  | list items => exact itemPaths_toJsons items path 0

theorem Value.itemPaths_toJsons (items : List Value) (path : ResponsePath) (start : Nat) :
    Json.itemPaths path start (toJsons items) = [] := by
  cases items with
  | nil => rfl
  | cons item items =>
    rw [toJsons, Json.itemPaths, entryPaths_toJson, itemPaths_toJsons items, List.append_nil]

end

/-- A finding with the entries below it, which are those of its data. -/
def Covers (path : ResponsePath) (visited : Finding × List Entry) : Prop :=
  visited.2.map Entry.path = visited.1.data.entryPaths path

structure FieldsCovered (selections : List Selection) (path : ResponsePath)
    (visited : List (String × Finding) × List Entry) : Prop where
  keys : visited.1.map Prod.fst = selections.map Selection.responseKey
  paths : visited.2.map Entry.path = Json.fieldPaths path (Finding.fieldsData visited.1)

theorem visitNode_covers {s : Selection} {declared : String} {node : NodeRef}
    {fieldsOf : String → StateM σ (List (String × Finding) × List Entry)} {path : ResponsePath}
    (hkeys : (s.selections.map Selection.responseKey).Nodup)
    (h : ∀ concrete, Yields (FieldsCovered s.selections path) (fieldsOf concrete)) :
    Yields (Covers path) (visitNode schema s declared node fieldsOf) := by
  unfold visitNode
  cases nodeType schema s declared node with
  | error fault => exact .pure rfl
  | ok concrete =>
    refine Yields.bind (h concrete) fun visited hvisited => ?_
    refine .pure ?_
    have hnodup : (visited.1.map Prod.fst).Nodup := by rwa [hvisited.keys]
    rw [Covers, Finding.data_object hnodup, hvisited.paths]
    rfl

theorem visitNodes_covers {f : Nat → NodeRef → StateM σ (Finding × List Entry)}
    {path : ResponsePath} (h : ∀ i node, Yields (Covers (path ++ [.index i])) (f i node))
    (start : Nat) (nodes : List NodeRef) :
    Yields (fun visited => visited.2.map Entry.path =
        Json.itemPaths path start (Finding.itemsData visited.1))
      (visitNodes f start nodes) := by
  induction nodes generalizing start with
  | nil => exact .pure rfl
  | cons node nodes ih =>
    refine Yields.bind (h start node) fun first hfirst => ?_
    refine Yields.bind (ih (start + 1)) fun others hothers => ?_
    refine .pure ?_
    rw [List.map_append, hfirst, hothers]
    rfl

theorem visitFields_covered {selections : List Selection}
    (each : ∀ s ∈ selections, ∀ typeName source path,
      Yields (Covers path) (visitField schema store typeName source path s))
    (typeName : String) (source : Option NodeRef) (path : ResponsePath) :
    Yields (FieldsCovered selections path)
      (visitFields schema store typeName source path selections) := by
  induction selections with
  | nil => exact .pure ⟨rfl, rfl⟩
  | cons s selections ih =>
    have hrest := ih fun other hother => each other (List.mem_cons_of_mem _ hother)
    refine Yields.bind (each s List.mem_cons_self _ _ _) fun first hfirst => ?_
    refine Yields.bind hrest fun others hothers => ?_
    refine .pure ⟨?_, ?_⟩
    · rw [List.map_cons, List.map_cons, hothers.keys]
    · rw [List.map_cons, List.map_append, hfirst, hothers.paths]
      rfl

theorem visitField_covers {s : Selection} (hkeys : DistinctKeys s.selections) (typeName : String)
    (source : Option NodeRef) (path : ResponsePath) :
    Yields (Covers path) (visitField schema store typeName source path s) := by
  induction s using Selection.induction generalizing typeName source path with
  | below s ih =>
    obtain ⟨hnodup, hbelow⟩ := hkeys
    have hnode : ∀ declared node path, Yields (Covers path)
        (visitNode schema s declared node fun concrete =>
          visitFields schema store concrete (some node) path s.selections) :=
      fun _ node path => visitNode_covers hnodup fun concrete =>
        visitFields_covered (fun t ht => ih t ht (hbelow t ht)) concrete _ path
    obtain ⟨name, shownAs, arguments, selections⟩ := s
    rw [visitField]
    refine Yields.bind (P := fun _ => True) (fun _ => trivial) fun resolution _ => ?_
    cases resolution with
    | typeName => exact .pure rfl
    | failed e => exact .pure rfl
    | scalar value => exact .pure (value.entryPaths_toJson path).symm
    | absent => exact .pure rfl
    | single declared node => exact hnode declared node path
    | many declared nodes =>
      refine Yields.bind (visitNodes_covers (fun i node => hnode declared node _) 0 nodes)
        fun items hitems => ?_
      exact .pure hitems

theorem visit_covers {selections : List Selection} (hkeys : DistinctKeys selections) :
    Yields (Covers []) (visit schema store selections) := by
  obtain ⟨hnodup, hbelow⟩ := hkeys
  refine Yields.bind (visitFields_covered (fun s hs => visitField_covers (hbelow s hs))
    Schema.queryType none []) fun visited hvisited => ?_
  refine .pure ?_
  have hkeys : (visited.1.map Prod.fst).Nodup := by rwa [hvisited.keys]
  rw [Covers, Finding.data_object hkeys, hvisited.paths]
  rfl

theorem execute_of_visit {selections : List Selection} {a b : σ} {found : Finding}
    {entries : List Entry} (h : visit schema store selections a = ((found, entries), b)) :
    execute schema store selections a = (⟨found.data, found.errors []⟩, b) := by
  have hexplore : explore schema store selections a = (found, b) := by
    rw [← visit_finding]
    show ((visit schema store selections a).1.1, (visit schema store selections a).2) = _
    rw [h]
  rw [execute_report]
  show (fun found : Finding × σ => (Response.mk found.1.data (found.1.errors []), found.2))
    (explore schema store selections a) = _
  rw [hexplore]

/-- Each entry of the objects of a response costs one statement if it names a field whose resolver
has to ask for something and accepts the source and the arguments, and otherwise none. No other
statement is sent. -/
theorem one_statement_per_entry {selections : List Selection} (hkeys : DistinctKeys selections)
    (state : σ) (issued : List String) {response : Response} {next : σ}
    (hresponse : execute schema store selections state = (response, next)) :
    ∃ (found : Finding) (entries : List Entry) (sent : List String),
      visit schema store selections state = ((found, entries), next) ∧
      response = ⟨found.data, found.errors []⟩ ∧
      entries.map Entry.path = response.data.entryPaths [] ∧
      execute schema store.recording selections (state, issued) =
        (response, next, issued ++ sent) ∧
      sent = entries.filterMap (Entry.statement? schema) ∧
      (∀ e ∈ entries, (e.statement? schema).isSome ↔ e.Costs schema) ∧
      sent.length = entries.countP (Entry.Costs schema) := by
  obtain ⟨⟨⟨found, entries⟩, last⟩, hvisit⟩ :
      ∃ visited, visit schema store selections state = visited := ⟨_, rfl⟩
  rw [execute_of_visit hvisit] at hresponse
  obtain ⟨rfl, rfl⟩ := Prod.mk.inj hresponse
  have hrecorded : visit schema store.recording selections (state, issued) =
      ((found, entries), last, issued ++ Entry.statements schema entries) := by
    have hsends := @visit_sends σ schema store selections state issued
    rwa [List.append_nil, hvisit] at hsends
  have hpaths : entries.map Entry.path = found.data.entryPaths [] := by
    have hcovers := @visit_covers σ schema store selections hkeys state
    rwa [hvisit] at hcovers
  refine ⟨found, entries, Entry.statements schema entries, hvisit, rfl, hpaths,
    execute_of_visit hrecorded, rfl, fun e _ => Entry.statement_isSome_iff, ?_⟩
  rw [Entry.statements, List.length_filterMap_eq_countP]
  refine List.countP_congr fun e _ => ?_
  rw [Entry.statement_isSome_iff, decide_eq_true_iff]

/-- Six of the seven entries cost a statement, also the one whose statement fails. The field that
the schema does not know costs none. -/
theorem mixed_query_costs :
    DistinctKeys mixedQuery ∧ ∃ response sent,
      execute Schema.dataset scriptedStore mixedQuery mixedReplies = (response, []) ∧
      execute Schema.dataset scriptedStore.recording mixedQuery (mixedReplies, []) =
        (response, [], sent) ∧
      (response.data.entryPaths []).length = 7 ∧ sent.length = 6 := by
  have hresponse : execute Schema.dataset scriptedStore mixedQuery mixedReplies =
      ((execute Schema.dataset scriptedStore mixedQuery mixedReplies).1, []) := by
    rfl
  have hentries : ((execute Schema.dataset scriptedStore mixedQuery mixedReplies).1.data.entryPaths
      []).length = 7 := by
    decide +kernel
  have hcosts : (visit Schema.dataset scriptedStore mixedQuery mixedReplies).1.2.countP
      (Entry.Costs Schema.dataset) = 6 := by
    decide +kernel
  obtain ⟨found, entries, sent, hvisit, _, _, hrecorded, _, _, hcount⟩ :=
    one_statement_per_entry distinctKeys_mixedQuery mixedReplies [] hresponse
  rw [hvisit] at hcosts
  exact ⟨distinctKeys_mixedQuery, _, sent, hresponse, hrecorded, hentries, hcount.trans hcosts⟩

end FieldGraph
