import FieldGraph.Ingest
import FieldGraph.Proofs.Field.Related
import FieldGraph.Proofs.Outcome
import FieldGraph.Store.Database
import FieldGraph.Store.Scripted

/-!
# What crosses the database boundary

A transcript has every statement that reaches the store behind a database, with the reply to it.
From it the failure of a call can be told: a reply that stops the call is reported as a failure of
the database, and as nothing else. An answer to the statement that counts nodes is read on the other
side of the boundary, and if there is no count in it then the error names the statement.
-/
namespace FieldGraph

variable {σ α β : Type}

abbrev Transcript := List (String × Reply)

def Store.transcribed (s : Store σ) : Store (σ × Transcript) where
  submit statement := fun (state, sent) =>
    let (reply, next) := s.submit statement state
    (reply, next, sent ++ [(statement, reply)])

def Transcript.AllAnswered (sent : Transcript) : Prop :=
  ∀ entry ∈ sent, ∃ table, entry.2 = .answered table

/-- The error is due to a document, a file or what is in it. -/
def GraphError.OfInput : GraphError → Prop
  | .malformedDocument _ => True
  | .file _ _ => True
  | .content _ => True
  | _ => False

theorem allAnswered_nil : Transcript.AllAnswered [] := by
  intro entry hentry
  cases hentry

theorem Transcript.AllAnswered.append {first others : Transcript} (hfirst : first.AllAnswered)
    (hothers : others.AllAnswered) : Transcript.AllAnswered (first ++ others) := by
  intro entry hentry
  rcases List.mem_append.mp hentry with hentry | hentry
  · exact hfirst entry hentry
  · exact hothers entry hentry

namespace Database

/-- The store fails, or it does not answer in time. -/
def Stops (timeout : Option Duration) : Reply → Prop
  | .answered _ => False
  | .failed _ => True
  | .unanswered => timeout.isSome = true

/-- The store answers the statement that counts nodes, without a count. -/
def Uncounted (s : Store σ) (a : σ) : Prop :=
  ∃ table next, s.submit countStatement a = (.answered table, next) ∧ Store.countOf? table = none

/-- Why a call comes to an error after the given statements, where `uncounted` says whether it has
missed a count. Without a timeout a statement that is not answered keeps the caller waiting. -/
inductive Cause (timeout : Option Duration) (uncounted : Prop) : Transcript → GraphError → Prop
  | stopped {front : Transcript} {statement : String} {reply : Reply} (hfront : front.AllAnswered)
      (hreply : Stops timeout reply) :
      Cause timeout uncounted (front ++ [(statement, reply)]) .database
  | waiting {front : Transcript} {statement : String} (hfront : front.AllAnswered)
      (htimeout : timeout = none) :
      Cause timeout uncounted (front ++ [(statement, .unanswered)]) (.store .noAnswer)
  | missed {sent : Transcript} (hsent : sent.AllAnswered) (hcount : uncounted) :
      Cause timeout uncounted sent (.store .noCount)
  | input {sent : Transcript} {e : GraphError} (hsent : sent.AllAnswered) (he : e.OfInput) :
      Cause timeout uncounted sent e

/-- Work that succeeds has all its statements answered, and other work has a cause to fail. -/
def Accounts (timeout : Option Duration) (uncounted : Prop) (sent : Transcript) :
    Except GraphError α → Prop
  | .ok _ => sent.AllAnswered
  | .error e => Cause timeout uncounted sent e

/-- The same work on a store with a transcript and on the store itself: it comes to the same, and
the transcript accounts for that. -/
def Transcribes (timeout : Option Duration) (uncounted : σ → Prop)
    (x : StoreM (σ × Transcript) α) (y : StoreM σ α) : Prop :=
  ∀ a before, ∃ sent, x (a, before) = ((y a).1, (y a).2, before ++ sent) ∧
    Accounts timeout (uncounted a) sent (y a).1

variable {timeout : Option Duration} {uncounted : σ → Prop} {s : Store σ}

theorem Cause.append {missed : Prop} {first others : Transcript} {e : GraphError}
    (hfirst : first.AllAnswered) (h : Cause timeout False others e) :
    Cause timeout missed (first ++ others) e := by
  cases h with
  | stopped hfront hreply =>
    rw [← List.append_assoc]
    exact .stopped (hfirst.append hfront) hreply
  | waiting hfront htimeout =>
    rw [← List.append_assoc]
    exact .waiting (hfirst.append hfront) htimeout
  | missed _ hcount => exact hcount.elim
  | input hsent he => exact .input (hfirst.append hsent) he

namespace Transcribes

theorem pure (value : α) :
    Transcribes timeout uncounted (pure value : StoreM (σ × Transcript) α) (pure value) := by
  intro a before
  exact ⟨[], by rw [List.append_nil]; rfl, allAnswered_nil⟩

theorem throw {e : GraphError} (he : e.OfInput) :
    Transcribes timeout uncounted (throw e : StoreM (σ × Transcript) α) (throw e) := by
  intro a before
  exact ⟨[], by rw [List.append_nil]; rfl, .input allAnswered_nil he⟩

/-- A count is missed by the first part of some work, if at all. -/
theorem bind {x : StoreM (σ × Transcript) α} {y : StoreM σ α}
    {f : α → StoreM (σ × Transcript) β} {g : α → StoreM σ β}
    (hxy : Transcribes timeout uncounted x y)
    (hfg : ∀ value, Transcribes timeout (fun _ => False) (f value) (g value)) :
    Transcribes timeout uncounted (x >>= f) (y >>= g) := by
  intro a before
  obtain ⟨sent, hx, hsent⟩ := hxy a before
  cases hy : y a with
  | mk outcome next =>
    rw [hy] at hx hsent
    cases outcome with
    | error e =>
      rw [storeM_bind_error hx, storeM_bind_error hy]
      exact ⟨sent, rfl, hsent⟩
    | ok value =>
      obtain ⟨more, hf, hmore⟩ := hfg value next (before ++ sent)
      rw [storeM_bind_ok hx, storeM_bind_ok hy]
      refine ⟨sent ++ more, by rw [hf, List.append_assoc], ?_⟩
      cases hg : (g value next).1 with
      | ok result =>
        rw [hg] at hmore
        exact Transcript.AllAnswered.append hsent hmore
      | error e =>
        rw [hg] at hmore
        exact Cause.append hsent hmore

end Transcribes

theorem answered_of_guard {reply : Reply} {table : Table}
    (h : (guard timeout reply).outcome = .ok table) : reply = .answered table := by
  cases reply with
  | answered other =>
    cases h
    rfl
  | failed e => cases h
  | unanswered =>
    unfold guard at h
    dsimp only at h
    split at h
    · cases h
    · cases h

theorem accounts_guard (timeout : Option Duration) (missed : Prop) (statement : String)
    (reply : Reply) :
    Accounts timeout missed [(statement, reply)] (guard timeout reply).outcome := by
  have hnil := allAnswered_nil
  cases reply with
  | answered table =>
    intro entry hentry
    rw [List.mem_singleton.mp hentry]
    exact ⟨table, rfl⟩
  | failed e =>
    have hstops : Stops timeout (.failed e) := trivial
    exact .stopped hnil hstops
  | unanswered =>
    unfold guard
    cases timeout with
    | none => exact .waiting hnil rfl
    | some limit =>
      have hstops : Stops (some limit) .unanswered := rfl
      exact .stopped hnil hstops

theorem execute_transcribed (s : Store σ) (timeout : Option Duration) (statement : String) (a : σ)
    (before : Transcript) {reply : Reply} {next : σ} (h : s.submit statement a = (reply, next)) :
    (store ⟨s.transcribed, timeout⟩).execute statement (a, before) =
        ((guard timeout reply).outcome, next, before ++ [(statement, reply)]) ∧
      (store ⟨s, timeout⟩).execute statement a = ((guard timeout reply).outcome, next) := by
  constructor
  · rw [Store.execute_eq]
    simp only [store, Store.transcribed, h]
  · rw [Store.execute_eq]
    simp only [store, h]

theorem transcribes_execute (s : Store σ) (timeout : Option Duration) (statement : String) :
    Transcribes timeout uncounted ((store ⟨s.transcribed, timeout⟩).execute statement)
      ((store ⟨s, timeout⟩).execute statement) := by
  intro a before
  cases hsubmit : s.submit statement a with
  | mk reply next =>
    obtain ⟨hx, hy⟩ := execute_transcribed s timeout statement a before hsubmit
    rw [hx, hy]
    exact ⟨[(statement, reply)], rfl, accounts_guard timeout _ statement reply⟩

/-- The count is read from an answer that has crossed the boundary already. -/
theorem transcribes_countNodes (s : Store σ) (timeout : Option Duration)
    (hmissed : ∀ a, Uncounted s a → uncounted a) :
    Transcribes timeout uncounted (store ⟨s.transcribed, timeout⟩).countNodes
      (store ⟨s, timeout⟩).countNodes := by
  intro a before
  cases hsubmit : s.submit countStatement a with
  | mk reply next =>
    obtain ⟨hx, hy⟩ := execute_transcribed s timeout countStatement a before hsubmit
    have haccounts := accounts_guard timeout (uncounted a) countStatement reply
    refine ⟨[(countStatement, reply)], ?_⟩
    cases hreply : (guard timeout reply).outcome with
    | error e =>
      rw [hreply] at hx hy haccounts
      rw [Store.countNodes, Store.countNodes, storeM_bind_error hx, storeM_bind_error hy]
      exact ⟨rfl, haccounts⟩
    | ok table =>
      rw [hreply] at hx hy haccounts
      rw [Store.countNodes, Store.countNodes, storeM_bind_ok hx, storeM_bind_ok hy]
      cases hcount : Store.countOf? table with
      | some n => exact ⟨rfl, haccounts⟩
      | none =>
        rw [answered_of_guard hreply] at hsubmit
        exact ⟨rfl, .missed haccounts (hmissed a ⟨table, next, hsubmit, hcount⟩)⟩

theorem transcribes_import (s : Store σ) (timeout : Option Duration) (rootLabel : String)
    (document : Json) :
    Transcribes timeout uncounted
      (importDocument (store ⟨s.transcribed, timeout⟩) rootLabel document)
      (importDocument (store ⟨s, timeout⟩) rootLabel document) := by
  rw [importDocument, importDocument]
  cases compile rootLabel document with
  | error fault => exact .throw trivial
  | ok b =>
    dsimp only
    split
    · exact .pure _
    · exact (transcribes_execute s timeout _).bind fun table => .pure _

theorem ofInput_of_loadDocument {path : String} {content : FileContent} {e : GraphError}
    (h : loadDocument path content = .error e) : e.OfInput := by
  unfold loadDocument at h
  cases htext : content.text path with
  | error fault =>
    rw [htext] at h
    cases h
    unfold FileContent.text at htext
    split at htext
    · cases htext
      trivial
    · split at htext
      · cases htext
      · cases htext
        trivial
  | ok text =>
    rw [htext] at h
    simp only [bind, Except.bind] at h
    split at h
    · cases h
    · cases h
      trivial

def CountsFirst (config : Config) : Prop :=
  config.dataset.isSome = true ∧ config.ingestWhenEmpty = true

theorem transcribes_dataset (s : Store σ) (timeout : Option Duration) (config : Config)
    (files : String → FileContent) :
    Transcribes timeout (fun a => CountsFirst config ∧ Uncounted s a)
      (ensureDataset config files (store ⟨s.transcribed, timeout⟩))
      (ensureDataset config files (store ⟨s, timeout⟩)) := by
  have himport : ∀ (missed : σ → Prop) (path : String), Transcribes timeout missed
      (do return .imported (← importFile (store ⟨s.transcribed, timeout⟩) config.defaultLabel path
        (files path)) : StoreM (σ × Transcript) IngestOutcome)
      (do return .imported (← importFile (store ⟨s, timeout⟩) config.defaultLabel path
        (files path))) := by
    intro missed path
    refine Transcribes.bind ?_ fun report => .pure _
    rw [importFile, importFile]
    cases hload : loadDocument path (files path) with
    | error e => exact .throw (ofInput_of_loadDocument hload)
    | ok document => exact transcribes_import s timeout config.defaultLabel document
  rw [ensureDataset, ensureDataset]
  cases hdataset : config.dataset with
  | none => exact .pure _
  | some path =>
    dsimp only
    cases hwhen : config.ingestWhenEmpty with
    | false => exact himport _ path
    | true =>
      have hcount : CountsFirst config := ⟨by rw [hdataset]; rfl, hwhen⟩
      refine (transcribes_countNodes s timeout fun a h => ⟨hcount, h⟩).bind fun existing => ?_
      by_cases hsome : 0 < existing
      · rw [if_pos hsome, if_pos hsome]
        exact .pure _
      · rw [if_neg hsome, if_neg hsome]
        exact himport _ path

inductive Call where
  | execute (statement : String)
  | countNodes
  | importDocument (rootLabel : String) (document : Json)
  | ensureDataset (config : Config) (files : String → FileContent)

namespace Call

def run (c : Call) (s : Store σ) : StoreM σ Unit :=
  match c with
  | .execute statement => do
    let _ ← s.execute statement
    return ()
  | .countNodes => do
    let _ ← s.countNodes
    return ()
  | .importDocument rootLabel document => do
    let _ ← FieldGraph.importDocument s rootLabel document
    return ()
  | .ensureDataset config files => do
    let _ ← FieldGraph.ensureDataset config files s
    return ()

def MissesCount (c : Call) (s : Store σ) (a : σ) : Prop :=
  match c with
  | .countNodes => Uncounted s a
  | .ensureDataset config _ => CountsFirst config ∧ Uncounted s a
  | _ => False

theorem transcribes_run (c : Call) (s : Store σ) (timeout : Option Duration) :
    Transcribes timeout (c.MissesCount s) (c.run (store ⟨s.transcribed, timeout⟩))
      (c.run (store ⟨s, timeout⟩)) := by
  cases c with
  | execute statement => exact (transcribes_execute s timeout statement).bind fun _ => .pure ()
  | countNodes => exact (transcribes_countNodes s timeout fun _ h => h).bind fun _ => .pure ()
  | importDocument rootLabel document =>
    exact (transcribes_import s timeout rootLabel document).bind fun _ => .pure ()
  | ensureDataset config files =>
    exact (transcribes_dataset s timeout config files).bind fun _ => .pure ()

end Call

theorem countNodes_of_uncounted {a : σ} (h : Uncounted s a) :
    ∃ next, (store ⟨s, timeout⟩).countNodes a = (.error (.store .noCount), next) := by
  obtain ⟨table, next, hsubmit, hcount⟩ := h
  obtain ⟨_, hexecute⟩ := execute_transcribed s timeout countStatement a [] hsubmit
  have hanswer : (store ⟨s, timeout⟩).execute countStatement a = (.ok table, next) := hexecute
  refine ⟨next, ?_⟩
  rw [Store.countNodes, storeM_bind_ok hanswer, hcount]
  rfl

theorem Call.run_of_missesCount {c : Call} {a : σ} (h : c.MissesCount s a) :
    (c.run (store ⟨s, timeout⟩) a).1 = .error (.store .noCount) := by
  cases c with
  | execute => exact h.elim
  | importDocument => exact h.elim
  | countNodes =>
    obtain ⟨next, hcount⟩ := @countNodes_of_uncounted _ timeout s a h
    rw [run, storeM_bind_error hcount]
  | ensureDataset config files =>
    obtain ⟨⟨hdataset, hwhen⟩, huncounted⟩ := h
    obtain ⟨path, hpath⟩ := Option.isSome_iff_exists.mp hdataset
    obtain ⟨next, hcount⟩ := @countNodes_of_uncounted _ timeout s a huncounted
    have hensure : FieldGraph.ensureDataset config files (store ⟨s, timeout⟩) a =
        (.error (.store .noCount), next) := by
      rw [FieldGraph.ensureDataset, hpath]
      dsimp only
      rw [hwhen, if_pos rfl]
      exact storeM_bind_error hcount
    rw [run, storeM_bind_error hensure]

theorem not_stops {sent : Transcript} (h : sent.AllAnswered) {entry : String × Reply}
    (hentry : entry ∈ sent) : ¬Stops timeout entry.2 := by
  obtain ⟨table, htable⟩ := h entry hentry
  rw [htable]
  exact not_false

theorem not_unanswered {sent : Transcript} (h : sent.AllAnswered) {entry : String × Reply}
    (hentry : entry ∈ sent) : entry.2 ≠ .unanswered := by
  obtain ⟨table, htable⟩ := h entry hentry
  rw [htable]
  exact nofun

section

variable {missed : Prop} {sent : Transcript} {outcome : Except GraphError α}

theorem Accounts.database_iff (h : Accounts timeout missed sent outcome) :
    outcome = .error .database ↔ ∃ entry ∈ sent, Stops timeout entry.2 := by
  constructor
  · rintro rfl
    cases h with
    | @stopped front statement reply _ hreply => exact ⟨(statement, reply), by simp, hreply⟩
    | input _ he => exact he.elim
  · rintro ⟨entry, hentry, hstops⟩
    cases outcome with
    | ok value => exact absurd hstops (not_stops h hentry)
    | error e =>
      cases h with
      | stopped => rfl
      | waiting hfront htimeout =>
        rcases List.mem_append.mp hentry with hentry | hentry
        · exact absurd hstops (not_stops hfront hentry)
        · rw [List.mem_singleton.mp hentry, htimeout] at hstops
          cases hstops
      | missed hsent => exact absurd hstops (not_stops hsent hentry)
      | input hsent => exact absurd hstops (not_stops hsent hentry)

theorem Accounts.noAnswer_iff (h : Accounts timeout missed sent outcome) :
    outcome = .error (.store .noAnswer) ↔
      timeout = none ∧ ∃ entry ∈ sent, entry.2 = .unanswered := by
  constructor
  · rintro rfl
    cases h with
    | @waiting front statement _ htimeout =>
      exact ⟨htimeout, (statement, .unanswered), by simp, rfl⟩
    | input _ he => exact he.elim
  · rintro ⟨htimeout, entry, hentry, hreply⟩
    cases outcome with
    | ok value => exact absurd hreply (not_unanswered h hentry)
    | error e =>
      cases h with
      | @stopped front statement reply hfront hstops =>
        rcases List.mem_append.mp hentry with hentry | hentry
        · exact absurd hreply (not_unanswered hfront hentry)
        · rw [List.mem_singleton.mp hentry] at hreply
          obtain rfl : reply = .unanswered := hreply
          rw [htimeout] at hstops
          cases hstops
      | waiting => rfl
      | missed hsent => exact absurd hreply (not_unanswered hsent hentry)
      | input hsent => exact absurd hreply (not_unanswered hsent hentry)

/-- What is no failure of the store is due to the input of the call. -/
theorem Cause.cases_eq {e : GraphError} (h : Cause timeout missed sent e) :
    e = .database ∨ e = .store .noAnswer ∨ missed ∧ e = .store .noCount ∨
      sent.AllAnswered ∧ e.OfInput := by
  cases h with
  | stopped => exact .inl rfl
  | waiting => exact .inr (.inl rfl)
  | missed _ hcount => exact .inr (.inr (.inl ⟨hcount, rfl⟩))
  | input hsent he => exact .inr (.inr (.inr ⟨hsent, he⟩))

end

/-- Whatever the store behind a database does, a call is told of its failures as failures of the
database, with one exception: an answer to the statement that counts nodes which has no count is
reported with the text of the statement. All other errors are about the input of the call, which
has then had an answer to every statement that it sent. Without a timeout a statement that is not
answered keeps the call waiting. -/
theorem failures_told_but_counts (s : Store σ) (timeout : Option Duration) (c : Call) (a : σ) :
    ∃ outcome next sent,
      c.run (store ⟨s, timeout⟩) a = (outcome, next) ∧
      c.run (store ⟨s.transcribed, timeout⟩) (a, []) = (outcome, next, sent) ∧
      (outcome = .error .database ↔ ∃ entry ∈ sent, Stops timeout entry.2) ∧
      (outcome = .error (.store .noCount) ↔ c.MissesCount s a) ∧
      (outcome = .error (.store .noAnswer) ↔
        timeout = none ∧ ∃ entry ∈ sent, entry.2 = .unanswered) ∧
      ∀ e, outcome = .error e → e = .database ∨ e = .store .noCount ∨ e = .store .noAnswer ∨
        sent.AllAnswered ∧ e.OfInput := by
  obtain ⟨sent, htranscript, haccounts⟩ := c.transcribes_run s timeout a []
  refine ⟨_, _, sent, (Prod.eta _).symm, htranscript, haccounts.database_iff, ?_,
    haccounts.noAnswer_iff, ?_⟩
  · constructor
    · intro hcount
      rw [hcount] at haccounts
      rcases haccounts.cases_eq with h | h | ⟨hmissed, _⟩ | ⟨_, h⟩
      · cases h
      · cases h
      · exact hmissed
      · exact h.elim
    · exact Call.run_of_missesCount
  · intro e he
    rw [he] at haccounts
    rcases haccounts.cases_eq with h | h | ⟨_, h⟩ | h
    · exact .inl h
    · exact .inr (.inr (.inl h))
    · exact .inr (.inl h)
    · exact .inr (.inr (.inr h))

/-- An empty table is no failure of the store, so the boundary lets it pass, and the error names
the statement that it answers. -/
theorem count_told_with_statement :
    ∃ e, ((store ⟨scriptedStore, none⟩).countNodes [.answered .empty]).1 = .error e ∧
      e ≠ .database ∧ e.message = "Store error: 'MATCH (n) RETURN count(n)' returned no count" := by
  refine ⟨.store .noCount, rfl, nofun, ?_⟩
  decide

end Database

end FieldGraph
