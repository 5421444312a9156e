import FieldGraph.Statement.Row
import FieldGraph.Store.Basic

/-!
# Work that may fail

Work in several parts succeeds exactly if all its parts do.
-/
namespace FieldGraph

variable {ε α β γ : Type}

theorem bind_eq_ok {x : Except ε α} {f : α → Except ε β} {b : β} :
    (x >>= f) = .ok b ↔ ∃ a, x = .ok a ∧ f a = .ok b := by
  cases x with
  | error e => simp [bind, Except.bind]
  | ok a => simp [bind, Except.bind]

theorem map_eq_ok {x : Except ε α} {f : α → β} {b : β} :
    x.map f = .ok b ↔ ∃ a, x = .ok a ∧ f a = b := by
  cases x with
  | error e => simp [Except.map]
  | ok a => simp [Except.map]

theorem mapM_ok {f : α → Except ε β} {g : α → β} (items : List α)
    (h : ∀ a ∈ items, f a = .ok (g a)) : items.mapM f = .ok (items.map g) := by
  induction items with
  | nil => rfl
  | cons a items ih =>
    have hrest := ih fun b hb => h b (List.mem_cons_of_mem _ hb)
    rw [List.mapM_cons, h a List.mem_cons_self, hrest]
    rfl

theorem length_of_mapM {f : α → Except ε β} {items : List α} {found : List β}
    (h : items.mapM f = .ok found) : found.length = items.length := by
  induction items generalizing found with
  | nil =>
    cases h
    rfl
  | cons a items ih =>
    rw [List.mapM_cons] at h
    obtain ⟨b, _, h⟩ := bind_eq_ok.mp h
    obtain ⟨others, hothers, h⟩ := bind_eq_ok.mp h
    cases h
    rw [List.length_cons, List.length_cons, ih hothers]

theorem mem_of_mapM {f : α → Except ε β} {items : List α} {found : List β} {b : β}
    (h : items.mapM f = .ok found) (hb : b ∈ found) : ∃ a ∈ items, f a = .ok b := by
  induction items generalizing found with
  | nil =>
    cases h
    cases hb
  | cons a items ih =>
    rw [List.mapM_cons] at h
    obtain ⟨first, hfirst, h⟩ := bind_eq_ok.mp h
    obtain ⟨others, hothers, h⟩ := bind_eq_ok.mp h
    cases h
    rcases List.mem_cons.mp hb with rfl | hb
    · exact ⟨a, List.mem_cons_self, hfirst⟩
    · obtain ⟨c, hc, hfound⟩ := ih hothers hb
      exact ⟨c, List.mem_cons_of_mem _ hc, hfound⟩

theorem collect_ok {f : α → Except ε (List β)} {g : α → List β} {items : List α}
    (h : ∀ a ∈ items, f a = .ok (g a)) : collect f items = .ok (items.flatMap g) := by
  induction items with
  | nil => rfl
  | cons a items ih =>
    have hrest := ih fun b hb => h b (List.mem_cons_of_mem _ hb)
    rw [collect, h a List.mem_cons_self, hrest]
    rfl

theorem exists_collect {f : α → Except ε (List β)} {items : List α}
    (h : ∀ a ∈ items, ∃ part, f a = .ok part) : ∃ found, collect f items = .ok found := by
  induction items with
  | nil => exact ⟨[], rfl⟩
  | cons a items ih =>
    obtain ⟨⟨first, hfirst⟩, hrest⟩ := List.forall_mem_cons.mp h
    obtain ⟨others, hothers⟩ := ih hrest
    exact ⟨first ++ others, by rw [collect, hfirst, hothers]; rfl⟩

theorem flatMap_if (p : α → Bool) (f : α → List β) (items : List α) :
    (items.flatMap fun a => if p a then f a else []) = (items.filter p).flatMap f := by
  induction items with
  | nil => rfl
  | cons a items ih =>
    rw [List.flatMap_cons, ih]
    by_cases hp : p a = true
    · rw [if_pos hp, List.filter_cons_of_pos hp, List.flatMap_cons]
    · rw [if_neg hp, List.filter_cons_of_neg hp, List.nil_append]

/-- Each item yields one result if it is kept, and none otherwise. -/
theorem collect_filter {f : α → Except ε (List β)} {p : α → Bool} {g : α → β} {items : List α}
    (h : ∀ a ∈ items, f a = .ok (if p a then [g a] else [])) :
    collect f items = .ok ((items.filter p).map g) := by
  rw [collect_ok h, flatMap_if p fun a => [g a], List.map_eq_flatMap]

theorem collect_map {f : α → Except ε (List β)} {g : α → β} (items : List α)
    (h : ∀ a ∈ items, f a = .ok [g a]) : collect f items = .ok (items.map g) := by
  rw [collect_ok h, List.map_eq_flatMap]

theorem collect_parts {f : α → Except ε (List β)} {items : List α} {found : List β}
    (h : collect f items = .ok found) :
    ∃ parts : List (α × List β), parts.map Prod.fst = items ∧ parts.flatMap Prod.snd = found ∧
      ∀ part ∈ parts, f part.1 = .ok part.2 := by
  induction items generalizing found with
  | nil =>
    cases h
    exact ⟨[], rfl, rfl, by simp⟩
  | cons a items ih =>
    obtain ⟨first, hfirst, h⟩ := bind_eq_ok.mp h
    obtain ⟨others, hothers, h⟩ := bind_eq_ok.mp h
    cases h
    obtain ⟨parts, rfl, rfl, hparts⟩ := ih hothers
    exact ⟨(a, first) :: parts, rfl, rfl, List.forall_mem_cons.mpr ⟨hfirst, hparts⟩⟩

theorem mem_collect {f : α → Except ε (List β)} {items : List α} {found : List β} {b : β}
    (h : collect f items = .ok found) (hb : b ∈ found) :
    ∃ a ∈ items, ∃ part, f a = .ok part ∧ b ∈ part := by
  obtain ⟨parts, rfl, rfl, hparts⟩ := collect_parts h
  obtain ⟨part, hpart, hb⟩ := List.mem_flatMap.mp hb
  exact ⟨part.1, List.mem_map_of_mem hpart, part.2, hparts part hpart, hb⟩

theorem collect_of_map (f : α → Except ε (List β)) (h : γ → α) (items : List γ) :
    collect f (items.map h) = collect (fun c => f (h c)) items := by
  induction items with
  | nil => rfl
  | cons c items ih => rw [List.map_cons, collect, collect, ih]

theorem exists_ok_of_toOption {x : Except ε α} {f : α → β} {b : β}
    (h : x.toOption.map f = some b) : ∃ a, x = .ok a ∧ f a = b := by
  cases x with
  | error => cases h
  | ok a => exact ⟨a, rfl, Option.some.inj h⟩

theorem eq_of_toOption_fst {σ : Type} {x : Except ε α × σ} {a : α}
    (h : x.1.toOption = some a) : x = (.ok a, x.2) := by
  obtain ⟨outcome, state⟩ := x
  cases outcome with
  | error => cases h
  | ok => rw [Option.some.inj h]

theorem storeM_bind_ok {σ : Type} {x : StoreM σ α} {f : α → StoreM σ β} {state next : σ} {a : α}
    (h : x state = (.ok a, next)) : (x >>= f) state = f a next := by
  simp only [bind, ExceptT.bind, ExceptT.mk, StateT.bind, h]
  rfl

theorem storeM_bind_error {σ : Type} {x : StoreM σ α} {f : α → StoreM σ β} {state next : σ}
    {e : GraphError} (h : x state = (.error e, next)) : (x >>= f) state = (.error e, next) := by
  simp only [bind, ExceptT.bind, ExceptT.mk, StateT.bind, h]
  rfl

end FieldGraph
