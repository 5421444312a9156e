import FieldGraph.Proofs.Field.Resolution
import Mathlib.Data.List.Forall2

/-!
# Related runs

Two stores that succeed and fail on the same statements of a schema give responses with the same
data and with errors at the same places. How the messages of these errors are related is how the
failures of the stores are told to a caller.
-/
namespace FieldGraph

variable {σ τ α β γ δ : Type} {R : σ → τ → Prop} {M : String → String → Prop} {schema : Schema}
  {s : Store σ} {t : Store τ}

/-- The same result, or two failures of which a caller is told in related words. -/
inductive Alike (M : String → String → Prop) (fail : GraphError → α) : α → α → Prop
  | same (x : α) : Alike M fail x x
  | failed {e f : GraphError} (h : M e.forCaller.message f.forCaller.message) :
      Alike M fail (fail e) (fail f)

def ErrorsAlike (M : String → String → Prop) : List FieldError → List FieldError → Prop :=
  List.Forall₂ fun d e => d.path = e.path ∧ M d.message e.message

def OutcomeAlike (M : String → String → Prop) (x y : Outcome α) : Prop :=
  x.1 = y.1 ∧ ErrorsAlike M x.2 y.2

/-- From related states, both computations give related results and leave related states. -/
def Related (R : σ → τ → Prop) (V : α → β → Prop) (m : StateM σ α) (n : StateM τ β) : Prop :=
  ∀ a b, R a b → V (m a).1 (n b).1 ∧ R (m a).2 (n b).2

namespace Related

variable {V : α → β → Prop} {W : γ → δ → Prop}

theorem pure {x : α} {y : β} (h : V x y) : Related R V (pure x) (pure y) :=
  fun _ _ hR => ⟨h, hR⟩

theorem bind {m : StateM σ α} {n : StateM τ β} {f : α → StateM σ γ} {g : β → StateM τ δ}
    (hm : Related R V m n) (hf : ∀ x y, V x y → Related R W (f x) (g y)) :
    Related R W (m >>= f) (n >>= g) := by
  intro a b hR
  obtain ⟨hV, hR⟩ := hm a b hR
  exact hf _ _ hV _ _ hR

theorem bind_outcome {m : StateM σ (Outcome α)} {n : StateM τ (Outcome α)}
    {f : Outcome α → StateM σ γ} {g : Outcome α → StateM τ δ} (hm : Related R (OutcomeAlike M) m n)
    (hf : ∀ value errors others, ErrorsAlike M errors others →
      Related R W (f (value, errors)) (g (value, others))) :
    Related R W (m >>= f) (n >>= g) := by
  refine bind hm ?_
  rintro ⟨value, errors⟩ ⟨_, others⟩ ⟨rfl, herrors⟩
  exact hf value errors others herrors

theorem succeed (value : α) :
    Related R (OutcomeAlike M) (Execution.succeed value) (Execution.succeed value) :=
  pure ⟨rfl, .nil⟩

theorem failAt {e f : GraphError} (h : M e.forCaller.message f.forCaller.message)
    (path : ResponsePath) :
    Related R (OutcomeAlike M) (Execution.failAt path e) (Execution.failAt path f) :=
  pure ⟨rfl, .cons ⟨rfl, h⟩ .nil⟩

end Related

def Reply.outcome : Reply → Except GraphError Table
  | .answered table => .ok table
  | .failed e => .error e
  | .unanswered => .error (.store .noAnswer)

theorem Store.execute_eq (s : Store σ) (text : String) (a : σ) :
    s.execute text a = ((s.submit text a).1.outcome, (s.submit text a).2) := by
  unfold Store.execute
  cases s.submit text a with
  | mk reply next => cases reply <;> rfl

theorem Store.execute_recording (s : Store σ) (text : String) (a : σ) (issued : List String) :
    s.recording.execute text (a, issued) =
      ((s.execute text a).1, (s.execute text a).2, issued ++ [text]) := by
  rw [execute_eq, execute_eq]
  rfl

def Schema.Sends (schema : Schema) (text : String) : Prop :=
  ∃ typeName name field source arguments, schema.field typeName name = .ok field ∧
    field.resolver.statement source arguments = .ok (some text)

/-- Two stores answer a statement alike in related states, which stay related. -/
def AnswerAlike (R : σ → τ → Prop) (M : String → String → Prop) (s : Store σ) (t : Store τ)
    (text : String) : Prop :=
  Related R (Alike M .error) (s.execute text) (t.execute text)

theorem resolve_related {r : Resolver} {source : Option NodeRef} {arguments : Arguments}
    (h : ∀ text, r.statement source arguments = .ok (some text) → AnswerAlike R M s t text) :
    Related R (Alike M .error) (r.resolve s source arguments) (r.resolve t source arguments) := by
  unfold Resolver.resolve
  cases hstatement : r.statement source arguments with
  | error fault => exact .pure (.same _)
  | ok sent =>
    cases sent with
    | none =>
      dsimp only
      cases r.requireSource source with
      | error fault => exact .pure (.same _)
      | ok node => exact .pure (.same _)
    | some text =>
      show Related R (Alike M .error) ((s.execute text).run >>= ExceptT.bindCont _)
        ((t.execute text).run >>= ExceptT.bindCont _)
      refine Related.bind (h text hstatement) ?_
      intro x y hxy
      cases hxy with
      | failed h => exact .pure (.failed h)
      | same x =>
        cases x with
        | error e => exact .pure (.same _)
        | ok table => exact .pure (.same _)

theorem resolveField_related (h : ∀ text, schema.Sends text → AnswerAlike R M s t text)
    (typeName : String) (source : Option NodeRef) (selection : Selection) :
    Related R (Alike M .failed) (resolveField schema s typeName source selection)
      (resolveField schema t typeName source selection) := by
  unfold resolveField
  by_cases hname : selection.name = typenameField
  · simp only [hname, if_true]
    exact .pure (.same _)
  · simp only [hname, if_false]
    cases hfield : schema.field typeName selection.name with
    | error fault => exact .pure (.same _)
    | ok field =>
      have hresolve : Related R (Alike M .error)
          (field.resolver.resolve s source (field.arguments selection.arguments))
          (field.resolver.resolve t source (field.arguments selection.arguments)) :=
        resolve_related fun text htext => h text ⟨_, _, field, _, _, hfield, htext⟩
      refine Related.bind hresolve ?_
      intro x y hxy
      cases hxy with
      | failed h => exact .pure (.failed h)
      | same x =>
        cases x with
        | error e => exact .pure (.same _)
        | ok resolved => exact .pure (.same _)

open Execution

theorem forNodes_related {f : Nat → NodeRef → StateM σ (Outcome Json)}
    {g : Nat → NodeRef → StateM τ (Outcome Json)}
    (h : ∀ i node, Related R (OutcomeAlike M) (f i node) (g i node)) (start : Nat)
    (nodes : List NodeRef) :
    Related R (OutcomeAlike M) (forNodes f start nodes) (forNodes g start nodes) := by
  induction nodes generalizing start with
  | nil => exact .succeed []
  | cons node nodes ih =>
    refine Related.bind_outcome (h start node) ?_
    intro value errors errors' herrors
    refine Related.bind_outcome (ih (start + 1)) ?_
    intro values others others' hothers
    exact .pure ⟨rfl, List.rel_append herrors hothers⟩

theorem completeField_related (hM : ∀ m, M m m) {selection : Selection}
    (below : ∀ typeName source path, Related R (OutcomeAlike M)
      (executeFields schema s typeName source path selection.selections)
      (executeFields schema t typeName source path selection.selections))
    (typeName : String) (path : ResponsePath) {x y : Resolution} (hxy : Alike M .failed x y) :
    Related R (OutcomeAlike M) (completeField schema s typeName path selection x)
      (completeField schema t typeName path selection y) := by
  have hnode : ∀ declared node path, Related R (OutcomeAlike M)
      (nodeOutcome schema s selection declared node path)
      (nodeOutcome schema t selection declared node path) := by
    intro declared node path
    unfold nodeOutcome
    cases nodeType schema selection declared node with
    | error fault => exact .failAt (hM _) path
    | ok concrete =>
      refine Related.bind_outcome (below concrete (some node) path) ?_
      intro fields errors others herrors
      exact .pure ⟨rfl, herrors⟩
  cases hxy with
  | failed h => exact .failAt h path
  | same x =>
    cases x with
    | typeName => exact .succeed _
    | failed e => exact .failAt (hM _) path
    | scalar value => exact .succeed _
    | absent => exact .succeed _
    | single declared node => exact hnode declared node path
    | many declared nodes =>
      refine Related.bind_outcome
        (forNodes_related (fun i node => hnode declared node _) 0 nodes) ?_
      intro values errors others herrors
      exact .pure ⟨rfl, herrors⟩

theorem executeFields_related {selections : List Selection}
    (each : ∀ selection ∈ selections, ∀ typeName source above, Related R (OutcomeAlike M)
      (executeField schema s typeName source above selection)
      (executeField schema t typeName source above selection))
    (typeName : String) (source : Option NodeRef) (path : ResponsePath) :
    Related R (OutcomeAlike M) (executeFields schema s typeName source path selections)
      (executeFields schema t typeName source path selections) := by
  induction selections with
  | nil => exact .succeed []
  | cons selection selections ih =>
    have hrest := ih fun other hother => each other (List.mem_cons_of_mem _ hother)
    refine Related.bind_outcome (each selection List.mem_cons_self typeName source path) ?_
    intro value errors errors' herrors
    refine Related.bind_outcome hrest ?_
    intro values others others' hothers
    exact .pure ⟨rfl, List.rel_append herrors hothers⟩

theorem executeField_related (hM : ∀ m, M m m)
    (h : ∀ text, schema.Sends text → AnswerAlike R M s t text) (selection : Selection)
    (typeName : String) (source : Option NodeRef) (above : ResponsePath) :
    Related R (OutcomeAlike M) (executeField schema s typeName source above selection)
      (executeField schema t typeName source above selection) := by
  induction selection using Selection.induction generalizing typeName source above with
  | below selection ih =>
    rw [executeField_eq, executeField_eq]
    refine Related.bind (resolveField_related h typeName source selection) ?_
    intro x y hxy
    exact completeField_related hM (executeFields_related ih) typeName _ hxy

/-- Stores that answer the statements of a schema alike give responses that are alike. -/
theorem execute_related (hM : ∀ m, M m m)
    (h : ∀ text, schema.Sends text → AnswerAlike R M s t text) (selections : List Selection) :
    Related R (fun x y : Response => x.data = y.data ∧ ErrorsAlike M x.errors y.errors)
      (execute schema s selections) (execute schema t selections) := by
  have hfields : Related R (OutcomeAlike M)
      (executeFields schema s Schema.queryType none [] selections)
      (executeFields schema t Schema.queryType none [] selections) :=
    executeFields_related (fun selection _ => executeField_related hM h selection) _ _ _
  refine Related.bind_outcome hfields ?_
  intro fields errors others herrors
  exact .pure ⟨rfl, herrors⟩

theorem response_eq {x y : Response} (hdata : x.data = y.data)
    (herrors : ErrorsAlike Eq x.errors y.errors) : x = y := by
  have hequal : x.errors = y.errors := by
    refine List.forall₂_eq_eq_eq ▸ herrors.imp ?_
    rintro ⟨message, path⟩ ⟨message', path'⟩ ⟨hpath, hmessage⟩
    cases hpath
    cases hmessage
    rfl
  obtain ⟨data, errors⟩ := x
  cases hdata
  cases hequal
  rfl

/-- The responses are equal if failures are told in the same words. -/
theorem execute_related_eq (h : ∀ text, schema.Sends text → AnswerAlike R Eq s t text)
    (selections : List Selection) :
    Related R Eq (execute schema s selections) (execute schema t selections) := by
  intro a b hR
  obtain ⟨⟨hdata, herrors⟩, hstates⟩ := execute_related (fun _ => rfl) h selections a b hR
  exact ⟨response_eq hdata herrors, hstates⟩

end FieldGraph
