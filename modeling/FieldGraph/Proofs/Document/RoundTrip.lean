import FieldGraph.Proofs.Document.Statements

/-!
# Reading compiled documents

The text of a compiled document is one query with a merge for each statement. It cannot be read
exactly if the least integer is among its values, since its digits alone are out of range.
-/
namespace FieldGraph

variable {objects : List (List (String × Json))} {b : Batch}

theorem lexes_statements {ms : List Mutation} (hms : ∀ m ∈ ms, m.Compiled objects)
    (hvalues : ∀ m ∈ ms, .int Int64.minValue ∉ m.values) :
    ∃ patterns : List Pattern, ms.map Mutation.pattern? = patterns.map some ∧
      (∀ p ∈ patterns, p.Writable) ∧
      ∀ rest, Lexes (ms.flatMap fun m => m.text.toList) rest (patterns.flatMap mergeTokens) := by
  induction ms with
  | nil => exact ⟨[], rfl, by simp, Lexes.nil⟩
  | cons m ms ih =>
    obtain ⟨p, hp, hwritable, hlex⟩ :=
      (hms m List.mem_cons_self).lexes (hvalues m List.mem_cons_self)
    obtain ⟨patterns, hpatterns, hall, hrest⟩ := ih
      (fun n hn => hms n (List.mem_cons_of_mem _ hn))
      (fun n hn => hvalues n (List.mem_cons_of_mem _ hn))
    refine ⟨p :: patterns, by simp [hp, hpatterns], ?_, fun rest => ?_⟩
    · intro q hq
      rcases List.mem_cons.mp hq with rfl | hq
      · exact hwritable
      · exact hall q hq
    · exact Lexes.append (hlex _) (hrest rest)

theorem unlexable_statements {ms : List Mutation} (hms : ∀ m ∈ ms, m.Compiled objects)
    (hbad : ∃ m ∈ ms, .int Int64.minValue ∈ m.values) :
    Unlexable (ms.flatMap fun m => m.text.toList) := by
  induction ms with
  | nil => simp at hbad
  | cons m ms ih =>
    by_cases hm : .int Int64.minValue ∈ m.values
    · exact (hms m List.mem_cons_self).unlexable hm _
    · obtain ⟨p, _, _, hlex⟩ := (hms m List.mem_cons_self).lexes hm
      have hlater : ∃ n ∈ ms, .int Int64.minValue ∈ n.values := by
        obtain ⟨n, hn, hvalue⟩ := hbad
        rcases List.mem_cons.mp hn with rfl | hn
        · exact absurd hvalue hm
        · exact ⟨n, hn, hvalue⟩
      exact Lexes.unlexable (hlex _) (ih (fun n hn => hms n (List.mem_cons_of_mem _ hn)) hlater)

theorem Batch.toList_render (b : Batch) :
    b.render.toList = b.mutations.toList.flatMap fun m => m.text.toList := by
  rw [Batch.render]
  induction b.mutations.toList with
  | nil => rfl
  | cons m ms ih =>
    rw [List.map_cons, String.join_cons, String.toList_append, ih, List.flatMap_cons]

theorem length_le_mergeTokens (patterns : List Pattern) :
    patterns.length ≤ (patterns.flatMap mergeTokens).length := by
  induction patterns with
  | nil => exact Nat.le_refl _
  | cons p patterns ih =>
    simp only [List.length_cons, List.flatMap_cons, List.length_append, mergeTokens]
    omega

theorem parse_render (hms : ∀ m ∈ b.mutations.toList, m.Compiled objects)
    (hne : b.isEmpty = false) (hvalues : ∀ m ∈ b.mutations.toList, .int Int64.minValue ∉ m.values) :
    ∃ patterns : List Pattern, b.mutations.toList.map Mutation.pattern? = patterns.map some ∧
      Script.parse b.render = .ok [patterns.map .merge] := by
  obtain ⟨patterns, hpatterns, hwritable, hlex⟩ := lexes_statements hms hvalues
  refine ⟨patterns, hpatterns, ?_⟩
  have hlex := hlex []
  rw [← Batch.toList_render] at hlex
  cases patterns with
  | nil =>
    have hnil : b.mutations.toList = [] := by simpa using hpatterns
    simp [Batch.isEmpty, Array.toList_eq_nil_iff.mp hnil] at hne
  | cons p patterns =>
    have hlimit : (p :: patterns).length ≤
        (p.tokens ++ patterns.flatMap mergeTokens).length + 2 := by
      have := length_le_mergeTokens patterns
      simp only [List.length_cons, List.length_append]
      omega
    exact Script.parse_of_clauses hlex (Reads.merges hlimit hwritable)

theorem parse_render_fault (hms : ∀ m ∈ b.mutations.toList, m.Compiled objects)
    (hbad : ∃ m ∈ b.mutations.toList, .int Int64.minValue ∈ m.values) :
    ∃ e, Script.parse b.render = .error e := by
  have hfault := unlexable_statements hms hbad
  rw [← Batch.toList_render] at hfault
  obtain ⟨e, he⟩ := hfault 0
  exact ⟨e, by rw [Script.parse, lex, he]; rfl⟩

/-- The text of a compiled document can be read exactly if the least integer is not among its
values, and then it is one query with one merge for each statement, in order. -/
theorem compiled_document_parses {rootLabel : String} {document : Json}
    (hcompile : compile rootLabel document = .ok b) (hne : b.isEmpty = false) :
    ((∃ script, Script.parse b.render = .ok script) ↔
      ∀ m ∈ b.mutations, Value.int Int64.minValue ∉ m.values) ∧
    ∀ script, Script.parse b.render = .ok script →
      ∃ patterns : List Pattern, script = [patterns.map .merge] ∧
        b.mutations.toList.map Mutation.pattern? = patterns.map some := by
  have hms := (invariant_of_compile hcompile).compiled
  by_cases hvalues : ∀ m ∈ b.mutations.toList, Value.int Int64.minValue ∉ m.values
  · obtain ⟨patterns, hpatterns, hparse⟩ := parse_render hms hne hvalues
    refine ⟨⟨fun _ m hm => hvalues m (Array.mem_toList_iff.mpr hm), fun _ => ⟨_, hparse⟩⟩, ?_⟩
    intro script hscript
    rw [hparse] at hscript
    cases hscript
    exact ⟨patterns, rfl, hpatterns⟩
  · have hbad : ∃ m ∈ b.mutations.toList, Value.int Int64.minValue ∈ m.values := by
      simpa using hvalues
    obtain ⟨e, he⟩ := parse_render_fault hms hbad
    refine ⟨⟨?_, ?_⟩, ?_⟩
    · rintro ⟨script, hscript⟩
      rw [he] at hscript
      cases hscript
    · intro hall
      exact absurd (fun m hm => hall m (Array.mem_toList_iff.mp hm)) hvalues
    · intro script hscript
      rw [he] at hscript
      cases hscript

def userDocument : Json := .object [("user", .object [("name", .string "Ann")])]

theorem compiled_user_parses :
    ∃ b, compile defaultLabel userDocument = .ok b ∧ b.isEmpty = false ∧
      ∃ script, Script.parse b.render = .ok script := by
  refine ⟨_, rfl, rfl, ?_⟩
  refine (@compiled_document_parses _ defaultLabel userDocument rfl rfl).1.mpr ?_
  simp [Batch.push, Batch.allocate, Batch.empty, Mutation.values]

end FieldGraph
