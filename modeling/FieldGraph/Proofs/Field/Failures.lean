import FieldGraph.Field.Dataset
import FieldGraph.Proofs.Field.Related
import FieldGraph.Store.Database
import FieldGraph.Store.Memory
import FieldGraph.Store.Scripted

/-!
# Failures of stores in responses

Of the failure of a store a caller is told that it happened, and nothing of why, unless the store
reports an invalid operation. Behind a database nothing is ever told.
-/
namespace FieldGraph

variable {σ τ α : Type} {R : σ → τ → Prop} {schema : Schema} {s : Store σ} {t : Store τ}

/-- The same value, or any two failures. -/
inductive FailAlike : Except GraphError α → Except GraphError α → Prop
  | same (value : α) : FailAlike (.ok value) (.ok value)
  | failed (e f : GraphError) : FailAlike (.error e) (.error f)

/-- From related states, two stores answer a statement with the same table or fail both. -/
def SucceedAlike (R : σ → τ → Prop) (s : Store σ) (t : Store τ) (text : String) : Prop :=
  Related R FailAlike (s.execute text) (t.execute text)

def GraphError.IsOperation (e : GraphError) : Prop := ∃ cause, e = .invalidOperation cause

/-- When both fail, they report the same error or none of them an invalid operation. -/
def SameOperations (R : σ → τ → Prop) (s : Store σ) (t : Store τ) (text : String) : Prop :=
  ∀ a b, R a b → ∀ e f, (s.execute text a).1 = .error e → (t.execute text b).1 = .error f →
    e = f ∨ ¬e.IsOperation ∧ ¬f.IsOperation

/-- Messages that differ only if one of them is that of an invalid operation. -/
def ToldApart (m n : String) : Prop :=
  m = n ∨ ∃ cause, m = (GraphError.invalidOperation cause).message ∨
    n = (GraphError.invalidOperation cause).message

theorem forCaller_cases (e : GraphError) : e.IsOperation ∨ e.forCaller = .database := by
  cases e with
  | invalidOperation cause => exact .inl ⟨cause, rfl⟩
  | malformedDocument fault => exact .inr rfl
  | store fault => exact .inr rfl
  | database => exact .inr rfl
  | statement error => exact .inr rfl
  | file path fault => exact .inr rfl
  | content fault => exact .inr rfl

theorem toldApart (e f : GraphError) : ToldApart e.forCaller.message f.forCaller.message := by
  rcases forCaller_cases e with ⟨cause, rfl⟩ | he
  · exact .inr ⟨cause, .inl rfl⟩
  · rcases forCaller_cases f with ⟨cause, rfl⟩ | hf
    · exact .inr ⟨cause, .inr rfl⟩
    · exact .inl (by rw [he, hf])

theorem told_same {e f : GraphError} (h : e = f ∨ ¬e.IsOperation ∧ ¬f.IsOperation) :
    e.forCaller.message = f.forCaller.message := by
  rcases h with rfl | ⟨he, hf⟩
  · rfl
  · rw [(forCaller_cases e).resolve_left he, (forCaller_cases f).resolve_left hf]

theorem SucceedAlike.answerAlike {M : String → String → Prop} {text : String}
    (h : SucceedAlike R s t text)
    (hM : ∀ a b, R a b → ∀ e f, (s.execute text a).1 = .error e → (t.execute text b).1 = .error f →
      M e.forCaller.message f.forCaller.message) : AnswerAlike R M s t text := by
  intro a b hR
  obtain ⟨hresult, hstates⟩ := h a b hR
  refine ⟨?_, hstates⟩
  have htold := hM a b hR
  generalize (s.execute text a).1 = x at hresult htold
  generalize (t.execute text b).1 = y at hresult htold
  cases hresult with
  | same table => exact .same _
  | failed e f => exact .failed (htold e f rfl rfl)

namespace FailAlike

variable {x y z : Except GraphError α}

theorem symm (h : FailAlike x y) : FailAlike y x := by
  cases h with
  | same value => exact .same value
  | failed e f => exact .failed f e

theorem trans (hxy : FailAlike x y) (hyz : FailAlike y z) : FailAlike x z := by
  cases hxy with
  | same value => exact hyz
  | failed e f =>
    cases hyz with
    | failed _ g => exact .failed e g

end FailAlike

namespace Database

variable {text : String} {a : σ}

theorem execute_alike (d : Database σ) (text : String) (a : σ) :
    FailAlike (d.inner.execute text a).1 (d.store.execute text a).1 ∧
      (d.store.execute text a).2 = (d.inner.execute text a).2 := by
  rw [Store.execute_eq, Store.execute_eq]
  refine ⟨?_, rfl⟩
  unfold store guard
  dsimp only
  cases (d.inner.submit text a).1 with
  | answered table => exact .same table
  | failed e => exact .failed e .database
  | unanswered =>
    cases d.timeout.isSome with
    | true => exact .failed (.store .noAnswer) .database
    | false => exact .failed (.store .noAnswer) (.store .noAnswer)

theorem not_isOperation (d : Database σ) {e : GraphError}
    (h : (d.store.execute text a).1 = .error e) : ¬e.IsOperation := by
  rintro ⟨cause, rfl⟩
  rw [Store.execute_eq] at h
  unfold store guard at h
  dsimp only at h
  cases hreply : (d.inner.submit text a).1 with
  | answered table =>
    rw [hreply] at h
    cases h
  | failed e =>
    rw [hreply] at h
    cases h
  | unanswered =>
    rw [hreply] at h
    cases htimeout : d.timeout.isSome with
    | true =>
      rw [htimeout] at h
      cases h
    | false =>
      rw [htimeout] at h
      cases h

theorem succeedAlike (h : ∀ text, SucceedAlike R s t text) (limit limit' : Option Duration)
    (text : String) : SucceedAlike R (store ⟨s, limit⟩) (store ⟨t, limit'⟩) text := by
  intro a b hR
  obtain ⟨hresult, hstates⟩ := h text a b hR
  obtain ⟨hleft, hs⟩ := execute_alike ⟨s, limit⟩ text a
  obtain ⟨hright, ht⟩ := execute_alike ⟨t, limit'⟩ text b
  rw [hs, ht]
  exact ⟨hleft.symm.trans (hresult.trans hright), hstates⟩

end Database

/-- Stores that succeed on the same statements with the same tables give responses with the same
data and errors at the same places. The messages of these errors can differ only by an invalid
operation that a store reports, and not at all behind databases. The limits of the databases may
differ, since an answer that is missing came within neither of them. -/
theorem failures_tell_operations_only (halike : ∀ text, SucceedAlike R s t text) {a : σ} {b : τ}
    (hstates : R a b) (selections : List Selection) {x y : Response}
    (hx : (execute schema s selections a).1 = x) (hy : (execute schema t selections b).1 = y) :
    x.data = y.data ∧ ErrorsAlike ToldApart x.errors y.errors ∧
      ((∀ text, SameOperations R s t text) → x = y) ∧
      ∀ limit limit', (execute schema (Database.store ⟨s, limit⟩) selections a).1 =
        (execute schema (Database.store ⟨t, limit'⟩) selections b).1 := by
  have hrun : Related R (fun x y : Response => x.data = y.data ∧
      ErrorsAlike ToldApart x.errors y.errors)
      (execute schema s selections) (execute schema t selections) :=
    execute_related (fun m => .inl rfl)
      (fun text _ => (halike text).answerAlike fun _ _ _ e f _ _ => toldApart e f) selections
  obtain ⟨⟨hdata, herrors⟩, _⟩ := hrun a b hstates
  subst hx hy
  refine ⟨hdata, herrors, ?_, ?_⟩
  · intro hsame
    exact (execute_related_eq (fun text _ => (halike text).answerAlike fun a b hR e f he hf =>
      told_same (hsame text a b hR e f he hf)) selections a b hstates).1
  · intro limit limit'
    refine (execute_related_eq (fun text _ => (Database.succeedAlike halike limit limit'
      text).answerAlike fun a b hR e f he hf => ?_) selections a b hstates).1
    exact told_same (.inr ⟨Database.not_isOperation _ he, Database.not_isOperation _ hf⟩)

theorem refusing_alike (s : Store σ) (part m n text : String) :
    SucceedAlike Eq (s.refusing part m) (s.refusing part n) text ∧
      SameOperations Eq (s.refusing part m) (s.refusing part n) text := by
  by_cases hpart : occursIn part.toList text.toList = true
  · have hexecute : ∀ (message : String) (a : σ), (s.refusing part message).execute text a =
        (.error (.store (.reported message)), a) := by
      intro message a
      unfold Store.execute Store.refusing
      dsimp only
      rw [if_pos hpart]
    constructor
    · rintro a _ rfl
      rw [hexecute, hexecute]
      exact ⟨.failed _ _, rfl⟩
    · rintro a _ rfl e f he hf
      rw [hexecute] at he hf
      cases he
      cases hf
      refine .inr ⟨?_, ?_⟩
      · rintro ⟨cause, h⟩
        cases h
      · rintro ⟨cause, h⟩
        cases h
  · have hexecute : ∀ (message : String) (a : σ),
        (s.refusing part message).execute text a = s.execute text a := by
      intro message a
      unfold Store.execute Store.refusing
      dsimp only
      rw [if_neg hpart]
    constructor
    · rintro a _ rfl
      rw [hexecute, hexecute]
      refine ⟨?_, rfl⟩
      cases (s.execute text a).1 with
      | ok table => exact .same table
      | error e => exact .failed e e
    · rintro a _ rfl e f he hf
      rw [hexecute] at he hf
      exact .inl (Except.error.inj (he.symm.trans hf))

def postTitles : List Selection := [⟨"posts", none, [], [⟨"title", none, [], []⟩]⟩]

theorem refused_titles_told_alike :
    ∃ x y : Response,
      (execute Schema.dataset (memoryStore.refusing "n.title" "no disk") postTitles
        (Graph.empty.addNode (some "Post") .empty)).1 = x ∧
      (execute Schema.dataset (memoryStore.refusing "n.title" "no memory") postTitles
        (Graph.empty.addNode (some "Post") .empty)).1 = y ∧
      x.errors.map FieldError.path = [[.key "posts", .index 0, .key "title"]] ∧ x = y := by
  obtain ⟨x, hx, hpaths⟩ : ∃ x : Response,
      (execute Schema.dataset (memoryStore.refusing "n.title" "no disk") postTitles
        (Graph.empty.addNode (some "Post") .empty)).1 = x ∧
      x.errors.map FieldError.path = [[.key "posts", .index 0, .key "title"]] :=
    ⟨_, rfl, by decide +kernel⟩
  have halike := refusing_alike memoryStore "n.title" "no disk" "no memory"
  obtain ⟨_, _, hequal, _⟩ := failures_tell_operations_only (fun text => (halike text).1)
    (Eq.refl (Graph.empty.addNode (some "Post") .empty)) postTitles hx rfl
  exact ⟨x, _, hx, rfl, hpaths, hequal fun text => (halike text).2⟩

/-- A schema whose label ends the first clause and begins another behind the result. -/
def splitSchema : Schema :=
  .ofTypes [.object Schema.queryType [.list "posts" "Post"
    (.collection "Post) RETURN id(n) MATCH (n")], .object "Post" [Schema.identityField]]

def postIds : List Selection := [⟨"posts", none, [], [⟨"_id", none, [], []⟩]⟩]

theorem operation_told_without_database :
    (∀ text, SucceedAlike Eq memoryStore (Database.store ⟨memoryStore, none⟩) text) ∧
      ∃ x y : Response, (execute splitSchema memoryStore postIds .empty).1 = x ∧
        (execute splitSchema (Database.store ⟨memoryStore, none⟩) postIds .empty).1 = y ∧
        x.errors.map FieldError.message =
          ["Invalid operation: RETURN must be the last clause"] ∧
        y.errors.map FieldError.message = ["Database error occurred. See server logs."] ∧
        x ≠ y := by
  constructor
  · rintro text a _ rfl
    obtain ⟨hresult, hstates⟩ := Database.execute_alike ⟨memoryStore, none⟩ text a
    exact ⟨hresult, hstates.symm⟩
  · obtain ⟨x, hx, hmessage⟩ : ∃ x : Response,
        (execute splitSchema memoryStore postIds .empty).1 = x ∧ x.errors.map FieldError.message =
          ["Invalid operation: RETURN must be the last clause"] := ⟨_, rfl, by decide +kernel⟩
    obtain ⟨y, hy, hmessage'⟩ : ∃ y : Response,
        (execute splitSchema (Database.store ⟨memoryStore, none⟩) postIds .empty).1 = y ∧
        y.errors.map FieldError.message = ["Database error occurred. See server logs."] :=
      ⟨_, rfl, by decide +kernel⟩
    refine ⟨x, y, hx, hy, hmessage, hmessage', ?_⟩
    rintro rfl
    rw [hmessage] at hmessage'
    exact absurd hmessage' (by decide)

end FieldGraph
