import FieldGraph.Field.Dataset
import FieldGraph.Proofs.Field.Related
import FieldGraph.Proofs.Field.Statements
import FieldGraph.Proofs.SortedMap
import FieldGraph.Proofs.Store.Growth

/-!
# Queries only read

Every statement that a query on the question-and-answer schema sends is free of merges, whatever
the query asks for and whatever texts are its arguments, so no query changes the graph.
-/
namespace FieldGraph

variable {σ : Type} {g : Graph} {text : String}

/-- No script that the text spells has a merge. -/
def OnlyReads (text : String) : Prop :=
  ∀ script, Script.parse text = .ok script → ∀ query ∈ script, ∀ c ∈ query, c.isMerge = false

theorem OnlyReads.parse_cases (h : OnlyReads text) :
    (∃ e, Script.parse text = .error e) ∨
      ∃ script, Script.parse text = .ok script ∧
        ∀ query ∈ script, ∀ c ∈ query, c.isMerge = false := by
  cases hparse : Script.parse text with
  | error e => exact .inl ⟨e, rfl⟩
  | ok script => exact .inr ⟨script, rfl, h script hparse⟩

theorem onlyReads_of_error {e : SyntaxError} (h : Script.parse text = .error e) :
    OnlyReads text := by
  intro script hscript
  rw [h] at hscript
  cases hscript

theorem onlyReads_of_find {p : Pattern} {filter : List Comparison} {items : List ReturnItem}
    (h : Script.parse text = .ok [[.find p filter, .result items]]) : OnlyReads text := by
  intro script hscript query hquery c hc
  rw [h] at hscript
  cases hscript
  rw [List.mem_singleton.mp hquery] at hc
  simp only [List.mem_cons, List.not_mem_nil, or_false] at hc
  rcases hc with rfl | rfl
  · rfl
  · rfl

/-- Plain names add no merge, and neither does a number, a search text or a fault. -/
theorem Resolver.Plain.onlyReads {r : Resolver} (hplain : r.Plain) {source : Option NodeRef}
    {arguments : Arguments} (h : r.statement source arguments = .ok (some text)) :
    OnlyReads text := by
  have haboutSource : ∀ {node : NodeRef} {p : Pattern} {o : Operand},
      (node.id < 0x8000000000000000 → ∃ column, Script.parse text =
        .ok [[.find p [sourceIs node.id], .result [⟨.value o, column⟩]]]) ∧
      (0x8000000000000000 ≤ node.id → ∃ e, Script.parse text = .error e) → OnlyReads text := by
    rintro node p o ⟨hread, hfault⟩
    by_cases hid : node.id < 0x8000000000000000
    · obtain ⟨column, hparse⟩ := hread hid
      exact onlyReads_of_find hparse
    · obtain ⟨e, hparse⟩ := hfault (Nat.not_lt.mp hid)
      exact onlyReads_of_error hparse
  cases r with
  | identity => cases h
  | property field =>
    obtain ⟨node, _, hparse⟩ := parse_property hplain h
    exact haboutSource hparse
  | relation multiplicity edgeType direction targetLabel =>
    obtain ⟨node, _, hparse⟩ := parse_relation hplain h
    exact haboutSource hparse
  | collection label =>
    cases h
    obtain ⟨column, hparse⟩ := parse_collection hplain
    exact onlyReads_of_find hparse
  | search =>
    cases hkeywords : keywords arguments with
    | error fault =>
      rw [statement, hkeywords] at h
      cases h
    | ok keywords =>
      rw [Search.resolver_statement source hkeywords] at h
      cases h
      have hparsed : ∀ p ∈ (Search.parse keywords).predicates, p.Parsed :=
        fun p hp => parsed_of_mem_parse hp
      by_cases hvalues : ∀ p ∈ (Search.parse keywords).predicates, p.value ≠ .int Int64.minValue
      · exact onlyReads_of_find (Search.parse_statement hparsed hvalues)
      · obtain ⟨e, hparse⟩ := Search.parse_statement_fault hparsed (by simpa using hvalues)
        exact onlyReads_of_error hparse

def TypeDef.fields : TypeDef → List FieldDef
  | .object _ fields => fields
  | .union _ _ => []

theorem Schema.exists_type_of_field {schema : Schema} {typeName name : String} {field : FieldDef}
    (h : schema.field typeName name = .ok field) :
    ∃ entry ∈ schema.types.entries, field ∈ entry.2.fields := by
  unfold Schema.field at h
  split at h
  case h_1 typeName' fields htype =>
    refine ⟨_, SortedMap.mem_entries_iff.mpr htype, ?_⟩
    split at h
    case h_1 f hfind =>
      cases h
      exact List.mem_of_find?_eq_some hfind
    case h_2 => cases h
  case h_2 => cases h
  case h_3 => cases h

theorem dataset_plain : ∀ entry ∈ Schema.dataset.types.entries, ∀ field ∈ entry.2.fields,
    field.resolver.Plain := by
  decide +kernel

theorem onlyReads_of_dataset (h : Schema.dataset.Sends text) : OnlyReads text := by
  obtain ⟨typeName, name, field, source, arguments, hfield, htext⟩ := h
  obtain ⟨entry, hentry, hmem⟩ := Schema.exists_type_of_field hfield
  exact (dataset_plain entry hentry field hmem).onlyReads htext

theorem submit_onlyReads (h : OnlyReads text) (g : Graph) :
    (memoryStore.submit text g).2 = g := by
  cases hsubmit : memoryStore.submit text g with
  | mk reply next =>
    rcases submit_cases hsubmit with ⟨answer, _, hrun⟩ | ⟨_, _, hsame⟩
    · obtain ⟨script, d, table, hparse, hscript, _, rfl⟩ := Graph.runText_ok hrun
      have hread : script.isReadOnly = true := by
        simpa [Script.isReadOnly] using h script hparse
      rw [Script.neededAccess, hread] at hscript
      rw [Script.run_read hscript]
    · exact hsame

/-- Nothing but reading statements has been sent to a graph since the given ones. -/
def ReadSince (g : Graph) (issued : List String) (watched : Graph × List String) (h : Graph) :
    Prop :=
  watched.1 = g ∧ h = g ∧ ∃ sent, watched.2 = issued ++ sent ∧ ∀ text ∈ sent, OnlyReads text

theorem answerAlike_recording (h : OnlyReads text) (g : Graph) (issued : List String) :
    AnswerAlike (ReadSince g issued) Eq memoryStore.recording memoryStore text := by
  rintro ⟨_, log⟩ _ ⟨rfl, rfl, sent, rfl, hsent⟩
  have hkept : ∀ g, (memoryStore.execute text g).2 = g := fun g => by
    rw [Store.execute_eq, submit_onlyReads h]
  rw [Store.execute_recording]
  refine ⟨.same _, hkept _, hkept _, sent ++ [text], List.append_assoc _ _ _, ?_⟩
  intro other hother
  rcases List.mem_append.mp hother with hother | hother
  · exact hsent other hother
  · rw [List.mem_singleton.mp hother]
    exact h

/-- Every query leaves the graph as it is. Each statement that it sends is free of merges, unless
it cannot be read at all. -/
theorem query_leaves_graph (g : Graph) (issued : List String) (selections : List Selection) :
    ∃ sent, execute Schema.dataset memoryStore.recording selections (g, issued) =
        ((execute Schema.dataset memoryStore selections g).1, g, issued ++ sent) ∧
      (execute Schema.dataset memoryStore selections g).2 = g ∧
      ∀ text ∈ sent, (∃ e, Script.parse text = .error e) ∨
        ∃ script, Script.parse text = .ok script ∧
          ∀ query ∈ script, ∀ c ∈ query, c.isMerge = false := by
  have hstart : ReadSince g issued (g, issued) g :=
    ⟨rfl, rfl, [], (List.append_nil issued).symm, by simp⟩
  have hrun := execute_related_eq
    (fun text htext => answerAlike_recording (onlyReads_of_dataset htext) g issued) selections
  obtain ⟨hresponse, hgraph, hplain, sent, hsent, hreads⟩ := hrun _ _ hstart
  refine ⟨sent, ?_, hplain, fun text htext => (hreads text htext).parse_cases⟩
  exact Prod.ext hresponse (Prod.ext hgraph hsent)

end FieldGraph
