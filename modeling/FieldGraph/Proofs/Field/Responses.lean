import FieldGraph.Field.Dataset
import FieldGraph.Proofs.Field.Positions
import FieldGraph.Store.Scripted

/-!
# The shape of a response

If no two selections side by side share a response key, the data has exactly the keys that were
asked for, and every error stands at a null of its own. A null without an error is what the
resolver found.
-/
namespace FieldGraph

variable {σ α β : Type} {schema : Schema} {store : Store σ}

/-- No two selections side by side share a response key, at any depth. -/
inductive DistinctKeys : List Selection → Prop
  | intro {selections : List Selection} (nodup : (selections.map Selection.responseKey).Nodup)
      (below : ∀ s ∈ selections, DistinctKeys s.selections) : DistinctKeys selections

/-- The values that a response may hold for a node that is declared to be of a type. -/
def NodeForm (schema : Schema) (declared : String)
    (fieldsForm : String → List (String × Json) → Prop) (value : Json) : Prop :=
  value = .null ∨ ∃ node concrete fields, schema.concreteType declared node = .ok concrete ∧
    value = .object fields ∧ fieldsForm concrete fields

mutual

def FieldForm (schema : Schema) (typeName : String) : Selection → Json → Prop
  | ⟨name, _, _, selections⟩, value =>
    if name = typenameField then value = .string typeName
    else
      match schema.field typeName name with
      | .error _ => value = .null
      | .ok field =>
        match field.fieldType with
        | .scalar => ∃ v : Value, value = v.toJson
        | .object declared =>
          NodeForm schema declared (fun concrete => FieldsForm schema concrete selections) value
        | .list declared => value = .null ∨ ∃ items, value = .array items ∧ ∀ item ∈ items,
          NodeForm schema declared (fun concrete => FieldsForm schema concrete selections) item

def FieldsForm (schema : Schema) (typeName : String) :
    List Selection → List (String × Json) → Prop
  | [], fields => fields = []
  | s :: rest, fields => ∃ value others, fields = (s.responseKey, value) :: others ∧
      FieldForm schema typeName s value ∧ FieldsForm schema typeName rest others

end

/-- From every state, the computation has a result with the property. -/
def Yields (P : α → Prop) (m : StateM σ α) : Prop := ∀ state, P (m state).1

namespace Yields

variable {P : α → Prop} {Q : β → Prop}

theorem pure {x : α} (h : P x) : Yields P (pure x : StateM σ α) := fun _ => h

theorem bind {m : StateM σ α} {f : α → StateM σ β} (hm : Yields P m)
    (hf : ∀ x, P x → Yields Q (f x)) : Yields Q (m >>= f) :=
  fun state => hf _ (hm state) _

theorem mapM {f : α → StateM σ β} (h : ∀ a, Yields Q (f a)) (items : List α) :
    Yields (fun results => ∀ x ∈ results, Q x) (items.mapM f) := by
  induction items with
  | nil => exact pure (by simp)
  | cons a items ih =>
    rw [List.mapM_cons]
    refine bind (h a) ?_
    intro first hfirst
    refine bind ih ?_
    intro others hothers
    exact pure (List.forall_mem_cons.mpr ⟨hfirst, hothers⟩)

end Yields

inductive Resolution.OfType : FieldType → Resolution → Prop
  | scalar (value : Value) : OfType .scalar (.scalar value)
  | absent (declared : String) : OfType (.object declared) .absent
  | single (declared : String) (node : NodeRef) : OfType (.object declared) (.single declared node)
  | many (declared : String) (nodes : List NodeRef) : OfType (.list declared) (.many declared nodes)

inductive Resolution.Fits (schema : Schema) (typeName : String) (s : Selection) :
    Resolution → Prop
  | typeName (hname : s.name = typenameField) : Fits schema typeName s .typeName
  | failed (hname : s.name ≠ typenameField) (e : GraphError) : Fits schema typeName s (.failed e)
  | found {field : FieldDef} {x : Resolution} (hname : s.name ≠ typenameField)
      (hfield : schema.field typeName s.name = .ok field) (htype : x.OfType field.fieldType) :
      Fits schema typeName s x

theorem ofResolved_cases (name : String) (type : FieldType) (resolved : Resolved) :
    (∃ e, Resolution.ofResolved name type resolved = .failed e) ∨
      (Resolution.ofResolved name type resolved).OfType type := by
  cases type with
  | scalar =>
    cases resolved with
    | scalar value => exact .inr (.scalar value)
    | reference node => exact .inl ⟨_, rfl⟩
    | references nodes => exact .inl ⟨_, rfl⟩
  | object declared =>
    cases resolved with
    | scalar value => exact .inl ⟨_, rfl⟩
    | reference node =>
      cases node with
      | none => exact .inr (.absent declared)
      | some node => exact .inr (.single declared node)
    | references nodes => exact .inl ⟨_, rfl⟩
  | list declared =>
    cases resolved with
    | scalar value => exact .inl ⟨_, rfl⟩
    | reference node => exact .inl ⟨_, rfl⟩
    | references nodes => exact .inr (.many declared nodes)

theorem resolveField_fits (typeName : String) (source : Option NodeRef) (s : Selection) :
    Yields (Resolution.Fits schema typeName s) (resolveField schema store typeName source s) := by
  unfold resolveField
  by_cases hname : s.name = typenameField
  · rw [if_pos hname]
    exact .pure (.typeName hname)
  · rw [if_neg hname]
    cases hfield : schema.field typeName s.name with
    | error fault => exact .pure (.failed hname _)
    | ok field =>
      refine Yields.bind (P := fun _ => True) (fun _ => trivial) ?_
      intro result _
      cases result with
      | error e => exact .pure (.failed hname e)
      | ok resolved =>
        apply Yields.pure
        rcases ofResolved_cases s.name field.fieldType resolved with ⟨e, he⟩ | htype
        · rw [he]
          exact .failed hname e
        · exact .found hname hfield htype

structure FieldFound (schema : Schema) (typeName : String) (s : Selection) (x : Finding) :
    Prop where
  distinct : x.Distinct
  form : FieldForm schema typeName s x.data

structure FieldsFound (schema : Schema) (typeName : String) (selections : List Selection)
    (fields : List (String × Finding)) : Prop where
  keys : fields.map Prod.fst = selections.map Selection.responseKey
  distinct : ∀ field ∈ fields, field.2.Distinct
  form : FieldsForm schema typeName selections (Finding.fieldsData fields)

theorem FieldsFound.object {typeName : String} {selections : List Selection}
    {fields : List (String × Finding)} (h : FieldsFound schema typeName selections fields)
    (hkeys : (selections.map Selection.responseKey).Nodup) :
    (Finding.object fields).Distinct ∧
      (Finding.object fields).data = .object (Finding.fieldsData fields) := by
  have hnodup : (fields.map Prod.fst).Nodup := by rwa [h.keys]
  exact ⟨Finding.distinct_object hnodup h.distinct, Finding.data_object hnodup⟩

theorem exploreFields_found {selections : List Selection}
    (each : ∀ s ∈ selections, ∀ typeName source,
      Yields (FieldFound schema typeName s) (exploreField schema store typeName source s))
    (typeName : String) (source : Option NodeRef) :
    Yields (FieldsFound schema typeName selections)
      (exploreFields schema store typeName source selections) := by
  induction selections with
  | nil => exact .pure ⟨rfl, by simp, rfl⟩
  | cons s selections ih =>
    have hrest := ih fun other hother => each other (List.mem_cons_of_mem _ hother)
    refine Yields.bind (each s List.mem_cons_self typeName source) ?_
    intro x hx
    refine Yields.bind hrest ?_
    intro others hothers
    refine Yields.pure ?_
    constructor
    · rw [List.map_cons, List.map_cons, hothers.keys]
    · exact List.forall_mem_cons.mpr ⟨hx.distinct, hothers.distinct⟩
    · exact ⟨_, _, rfl, hx.form, hothers.form⟩

theorem exploreNode_found {s : Selection} (hkeys : DistinctKeys s.selections)
    (below : ∀ typeName source, Yields (FieldsFound schema typeName s.selections)
      (exploreFields schema store typeName source s.selections))
    (declared : String) (node : NodeRef) :
    Yields (fun x => x.Distinct ∧ NodeForm schema declared
        (fun concrete => FieldsForm schema concrete s.selections) x.data)
      (exploreNode schema s declared node fun concrete =>
        exploreFields schema store concrete (some node) s.selections) := by
  unfold exploreNode
  cases htype : nodeType schema s declared node with
  | error fault => exact .pure ⟨Finding.distinct_leaf rfl, .inl rfl⟩
  | ok concrete =>
    have hconcrete : schema.concreteType declared node = .ok concrete := by
      unfold nodeType at htype
      split at htype
      · cases htype
      · exact htype
    refine Yields.bind (below concrete (some node)) ?_
    intro fields hfields
    obtain ⟨hnodup, _⟩ := hkeys
    obtain ⟨hdistinct, hdata⟩ := hfields.object hnodup
    exact .pure ⟨hdistinct, .inr ⟨node, concrete, _, hconcrete, hdata, hfields.form⟩⟩

theorem fieldForm_null {s : Selection} {typeName : String} (hname : s.name ≠ typenameField) :
    FieldForm schema typeName s .null := by
  obtain ⟨name, shownAs, arguments, selections⟩ := s
  rw [FieldForm, if_neg hname]
  cases schema.field typeName name with
  | error fault => rfl
  | ok field =>
    dsimp only
    cases field.fieldType with
    | scalar => exact ⟨.null, rfl⟩
    | object declared => exact .inl rfl
    | list declared => exact .inl rfl

theorem exploreField_found {s : Selection} (hkeys : DistinctKeys s.selections) (typeName : String)
    (source : Option NodeRef) :
    Yields (FieldFound schema typeName s) (exploreField schema store typeName source s) := by
  induction s using Selection.induction generalizing typeName source with
  | below s ih =>
    have hbelow : ∀ t ∈ s.selections, DistinctKeys t.selections := by
      cases hkeys
      assumption
    have hnode := exploreNode_found hkeys
      (@exploreFields_found σ schema store _ fun t ht => ih t ht (hbelow t ht))
    obtain ⟨name, shownAs, arguments, selections⟩ := s
    rw [exploreField]
    refine Yields.bind (resolveField_fits typeName source _) ?_
    intro resolution hfits
    cases hfits with
    | typeName hname =>
      refine Yields.pure ⟨Finding.distinct_leaf rfl, ?_⟩
      rw [FieldForm, if_pos hname]
      rfl
    | failed hname e => exact Yields.pure ⟨Finding.distinct_leaf rfl, fieldForm_null hname⟩
    | @found field x hname hfield htype =>
      generalize hfieldType : field.fieldType = type at htype
      cases htype with
      | scalar value =>
        refine Yields.pure ⟨Finding.distinct_leaf rfl, ?_⟩
        simp only [FieldForm, if_neg hname, hfield, hfieldType]
        exact ⟨value, rfl⟩
      | absent declared => exact Yields.pure ⟨Finding.distinct_leaf rfl, fieldForm_null hname⟩
      | single declared node =>
        intro state
        obtain ⟨hdistinct, hform⟩ := hnode declared node state
        refine ⟨hdistinct, ?_⟩
        simp only [FieldForm, if_neg hname, hfield, hfieldType]
        exact hform
      | many declared nodes =>
        refine Yields.bind (Yields.mapM (hnode declared) nodes) ?_
        intro items hitems
        refine Yields.pure ⟨Finding.distinct_list fun x hx => (hitems x hx).1, ?_⟩
        simp only [FieldForm, if_neg hname, hfield, hfieldType]
        refine .inr ⟨_, rfl, ?_⟩
        intro item hitem
        rw [Finding.itemsData_eq_map] at hitem
        obtain ⟨x, hx, rfl⟩ := List.mem_map.mp hitem
        exact (hitems x hx).2

theorem explore_found {selections : List Selection} (hkeys : DistinctKeys selections) :
    Yields (fun found => found.Distinct ∧ ∃ fields, found.data = .object fields ∧
      FieldsForm schema Schema.queryType selections fields) (explore schema store selections) := by
  obtain ⟨hnodup, hbelow⟩ := hkeys
  refine Yields.bind (exploreFields_found (fun s hs => exploreField_found (hbelow s hs))
    Schema.queryType none) ?_
  intro fields hfields
  obtain ⟨hdistinct, hdata⟩ := hfields.object hnodup
  exact .pure ⟨hdistinct, _, hdata, hfields.form⟩

theorem FieldsForm.keys {typeName : String} {selections : List Selection}
    {fields : List (String × Json)} (h : FieldsForm schema typeName selections fields) :
    fields.map Prod.fst = selections.map Selection.responseKey := by
  induction selections generalizing fields with
  | nil =>
    rw [FieldsForm] at h
    rw [h]
    rfl
  | cons s selections ih =>
    rw [FieldsForm] at h
    obtain ⟨value, others, rfl, _, hrest⟩ := h
    rw [List.map_cons, List.map_cons, ih hrest]

/-- A query whose response keys are distinct side by side is answered in the form of its selections.
Each error stands at a null and apart from all others. A null on which no error reports is a missing
reference or a scalar that has no other JSON form. -/
theorem response_tells_findings {selections : List Selection} (hkeys : DistinctKeys selections)
    (state : σ) {response : Response} {found : Finding}
    (hresponse : (execute schema store selections state).1 = response)
    (hfound : (explore schema store selections state).1 = found) :
    (∃ fields, response.data = .object fields ∧
      fields.map Prod.fst = selections.map Selection.responseKey ∧
      FieldsForm schema Schema.queryType selections fields) ∧
    (∀ e ∈ response.errors, response.data.follow e.path = some .null) ∧
    (response.errors.Pairwise fun d e => ¬d.path <+: e.path ∧ ¬e.path <+: d.path) ∧
    ∀ path x, found.At path x → ∃ value, response.data.follow path = some value ∧
      ((value = .null ∧ ∀ e ∈ response.errors, e.path ≠ path) ↔ x.Empty) := by
  have hreport : response = ⟨found.data, found.errors []⟩ := by
    rw [← hresponse, ← hfound, execute_report]
    rfl
  obtain ⟨hdistinct, fields, hdata, hform⟩ := @explore_found σ schema store _ hkeys state
  rw [hfound] at hdistinct hdata
  subst hreport
  refine ⟨⟨fields, hdata, hform.keys, hform⟩, ?_, Finding.errors_apart hdistinct [], ?_⟩
  · intro e he
    obtain ⟨path, cause, hat, rfl⟩ := Finding.mem_errors_iff.mp he
    exact hat.follow hdistinct
  · intro path x hat
    refine ⟨x.data, hat.follow hdistinct, ?_⟩
    rw [Finding.data_eq_null_iff]
    constructor
    · rintro ⟨⟨cause, rfl⟩ | hempty, herrors⟩
      · exact absurd rfl (herrors _ (Finding.mem_errors_iff.mpr ⟨path, cause, hat, rfl⟩))
      · exact hempty
    · intro hempty
      refine ⟨.inr hempty, ?_⟩
      rintro e he rfl
      -- An error at this path would be that of another finding, a failed one.
      obtain ⟨below, cause, hfailed, rfl⟩ := Finding.mem_errors_iff.mp he
      cases hat.unique hfailed hdistinct
      rcases hempty with hempty | ⟨v, hempty, _⟩
      · cases hempty
      · cases hempty

def mixedQuery : List Selection :=
  [⟨"posts", some "p", [], [⟨"title", none, [], []⟩, ⟨"user", none, [], [⟨"name", none, [], []⟩]⟩,
      ⟨"score", none, [], []⟩, ⟨"nickname", none, [], []⟩]⟩,
    ⟨"users", none, [], []⟩,
    ⟨"search", none, [], [⟨typenameField, none, [], []⟩]⟩]

/-- A post without a title to be had, without a user, and with a score that is no number; a user;
and a node of a type that no search yields. -/
def mixedReplies : List Reply :=
  [.answered ⟨[], [[.int 0]], []⟩, .failed (.store (.reported "down")), .answered .empty,
    .answered ⟨[], [[.float .nan]], []⟩, .answered ⟨[], [[.int 1]], []⟩,
    .answered ⟨[], [[.int 2, .string "Tag"]], []⟩]

theorem distinctKeys_mixedQuery : DistinctKeys mixedQuery := by
  have hleaf : DistinctKeys [] := .intro List.nodup_nil (by simp)
  have hname : ∀ s : Selection, s.selections = [] → DistinctKeys [s] := by
    intro s hs
    refine .intro (List.nodup_singleton _) ?_
    simpa [hs] using hleaf
  refine .intro (by decide) ?_
  simp only [mixedQuery, List.forall_mem_cons, List.not_mem_nil, false_imp_iff, implies_true,
    and_true]
  refine ⟨.intro (by decide) ?_, hleaf, hname _ rfl⟩
  simp only [List.forall_mem_cons, List.not_mem_nil, false_imp_iff, implies_true, and_true]
  exact ⟨hleaf, hname _ rfl, hleaf, hleaf⟩

theorem mixed_query_tells_findings :
    DistinctKeys mixedQuery ∧ ∃ response,
      (execute Schema.dataset scriptedStore mixedQuery mixedReplies).1 = response ∧
      response.errors.map FieldError.path =
        [[.key "p", .index 0, .key "title"], [.key "p", .index 0, .key "nickname"],
          [.key "users", .index 0], [.key "search", .index 0]] ∧
      (∀ e ∈ response.errors, response.data.follow e.path = some .null) ∧
      ∃ fields, response.data = .object fields ∧
        fields.map Prod.fst = ["p", "users", "search"] := by
  obtain ⟨response, hresponse, hpaths⟩ : ∃ response,
      (execute Schema.dataset scriptedStore mixedQuery mixedReplies).1 = response ∧
      response.errors.map FieldError.path =
        [[.key "p", .index 0, .key "title"], [.key "p", .index 0, .key "nickname"],
          [.key "users", .index 0], [.key "search", .index 0]] := ⟨_, rfl, by decide +kernel⟩
  obtain ⟨⟨fields, hdata, hkeys, _⟩, hnull, _⟩ :=
    response_tells_findings distinctKeys_mixedQuery mixedReplies hresponse rfl
  exact ⟨distinctKeys_mixedQuery, response, hresponse, hpaths, hnull, fields, hdata, hkeys⟩

end FieldGraph
