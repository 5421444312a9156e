import FieldGraph.Proofs.Field.Positions
import FieldGraph.Proofs.Field.Related
import FieldGraph.Store.Memory

/-!
# Fields beside a field

A selection at some position has no part in what stands beside it. If it is replaced by another one
under the same response key, then the data is the same with nulls at that position, and the errors
that are not below the position are the same, in the same order.
-/
namespace FieldGraph

variable {σ : Type} {schema : Schema} {store : Store σ}

/-- The store has one reply to a statement, whatever came before it. -/
def Store.Steady (s : Store σ) : Prop :=
  ∃ reply : String → Reply, ∀ statement state, (s.submit statement state).1 = reply statement

/-- The second selections have another selection than the first ones at a position, under the same
response key. A position is told by the response keys on the way. -/
inductive Replaced : List String → List Selection → List Selection → Prop
  | here (front back : List Selection) {s t : Selection} (h : t.responseKey = s.responseKey) :
      Replaced [s.responseKey] (front ++ s :: back) (front ++ t :: back)
  | inside (front back : List Selection) {s : Selection} {position : List String}
      {selections : List Selection} (h : Replaced position s.selections selections) :
      Replaced (s.responseKey :: position) (front ++ s :: back)
        (front ++ { s with selections := selections } :: back)

def keysOf (path : ResponsePath) : List String :=
  path.filterMap fun
    | .key name => some name
    | .index _ => none

/-- Whether a path leads through a position, whatever list indices are on the way. -/
def goesThrough (position : List String) (path : ResponsePath) : Bool :=
  position.isPrefixOf (keysOf path)

namespace Json

mutual

/-- The value with nulls at a position, whatever list indices are on the way. -/
def blank : List String → Json → Json
  | [], _ => .null
  | key :: rest, .object fields => .object (blankFields key rest fields)
  | key :: rest, .array items => .array (blankItems (key :: rest) items)
  | _ :: _, value => value

def blankFields (key : String) (rest : List String) : List (String × Json) → List (String × Json)
  | [] => []
  | (k, value) :: others =>
    (k, if k = key then value.blank rest else value) :: blankFields key rest others

def blankItems (position : List String) : List Json → List Json
  | [] => []
  | item :: others => item.blank position :: blankItems position others

end

theorem blankFields_eq_map (key : String) (rest : List String) (fields : List (String × Json)) :
    blankFields key rest fields =
      fields.map fun (k, value) => (k, if k = key then value.blank rest else value) := by
  induction fields with
  | nil => rfl
  | cons field fields ih => rw [blankFields, ih, List.map_cons]

theorem blankItems_eq_map (position : List String) (items : List Json) :
    blankItems position items = items.map (blank position) := by
  induction items with
  | nil => rfl
  | cons item items ih => rw [blankItems, ih, List.map_cons]

variable {key : String} {rest : List String}

theorem setField_blankFields (fields : List (String × Json)) (k : String) (value : Json) :
    setField (blankFields key rest fields) k (if k = key then value.blank rest else value) =
      blankFields key rest (setField fields k value) := by
  induction fields with
  | nil => rfl
  | cons field fields ih =>
    obtain ⟨name, old⟩ := field
    rw [blankFields, setField, setField, ih]
    by_cases hname : name = k
    · rw [if_pos hname, if_pos hname, blankFields, hname]
    · rw [if_neg hname, if_neg hname, blankFields]

/-- Whether nulls are put in before or after fields are overlaid makes no difference. -/
theorem overlay_blankFields (fields others : List (String × Json)) :
    overlay (blankFields key rest fields) (blankFields key rest others) =
      blankFields key rest (overlay fields others) := by
  induction others generalizing fields with
  | nil => rfl
  | cons field others ih =>
    obtain ⟨k, value⟩ := field
    have hfirst : ∀ (fields others : List (String × Json)) (value : Json),
        overlay fields ((k, value) :: others) = overlay (setField fields k value) others :=
      fun _ _ _ => rfl
    rw [blankFields, hfirst, hfirst, setField_blankFields, ih]

theorem lookup_blankFields (fields : List (String × Json)) (name : String) :
    (blankFields key rest fields).lookup name =
      (fields.lookup name).map fun value => if name = key then value.blank rest else value := by
  induction fields with
  | nil => rfl
  | cons field fields ih =>
    obtain ⟨k, value⟩ := field
    rw [blankFields, List.lookup_cons, List.lookup_cons, ih]
    cases hname : name == k with
    | true => rw [eq_of_beq hname]; rfl
    | false => rfl

theorem follow_blank {position : List String} {path : ResponsePath} (value : Json)
    (hthrough : ¬position <+: keysOf path) (habove : ¬keysOf path <+: position) :
    (value.blank position).follow path = value.follow path := by
  induction path generalizing position value with
  | nil => exact absurd (List.nil_prefix) habove
  | cons step path ih =>
    obtain _ | ⟨key, rest⟩ := position
    · exact absurd List.nil_prefix hthrough
    cases value with
    | object fields =>
      cases step with
      | index i => rfl
      | key name =>
        rw [blank, follow, follow, lookup_blankFields]
        cases fields.lookup name with
        | none => rfl
        | some value =>
          by_cases hname : name = key
          · subst hname
            show (if name = name then value.blank rest else value).follow path = value.follow path
            rw [if_pos rfl]
            refine ih value (fun h => hthrough ?_) fun h => habove ?_
            · exact List.cons_prefix_cons.mpr ⟨rfl, h⟩
            · exact List.cons_prefix_cons.mpr ⟨rfl, h⟩
          · show (if name = key then value.blank rest else value).follow path = value.follow path
            rw [if_neg hname]
    | array items =>
      cases step with
      | key name => rfl
      | index i =>
        rw [blank, follow, follow, blankItems_eq_map, List.getElem?_map]
        cases items[i]? with
        | none => rfl
        | some item => exact ih item hthrough habove
    | _ => rfl

end Json

namespace Finding

/-- The findings are the same but for what is found at a position. -/
inductive SameBut : List String → Finding → Finding → Prop
  | here (f g : Finding) : SameBut [] f g
  | same (position : List String) (f : Finding) : SameBut position f f
  | object (front back : List (String × Finding)) {key : String} {position : List String}
      {f g : Finding} (h : SameBut position f g) :
      SameBut (key :: position) (.object (front ++ (key, f) :: back))
        (.object (front ++ (key, g) :: back))
  | list {key : String} {position : List String} {pairs : List (Finding × Finding)}
      (h : ∀ pair ∈ pairs, SameBut (key :: position) pair.1 pair.2) :
      SameBut (key :: position) (.list (pairs.map Prod.fst)) (.list (pairs.map Prod.snd))

variable {position : List String} {f g : Finding}

theorem SameBut.data (h : SameBut position f g) :
    f.data.blank position = g.data.blank position := by
  induction h with
  | here f g => rw [Json.blank, Json.blank]
  | same position f => rfl
  | @object front back key position f g _ ih =>
    have hfields : ∀ x : Finding, (Finding.object (front ++ (key, x) :: back)).data.blank
        (key :: position) = .object (Json.overlay []
          (Json.blankFields key position (fieldsData front) ++
            (key, x.data.blank position) :: Json.blankFields key position (fieldsData back))) := by
      intro x
      have hnil : Json.blankFields key position [] = [] := rfl
      rw [Finding.data, Json.blank, ← Json.overlay_blankFields, hnil]
      simp [fieldsData_eq_map, Json.blankFields_eq_map]
    rw [hfields, hfields, ih]
  | @list key position pairs _ ih =>
    rw [Finding.data, Finding.data, Json.blank, Json.blank, itemsData_eq_map, itemsData_eq_map,
      Json.blankItems_eq_map, Json.blankItems_eq_map]
    simpa using ih

/-- All errors that are read off a finding are below its path. -/
theorem prefix_of_mem_errors {e : FieldError} {path : ResponsePath} (h : e ∈ f.errors path) :
    path <+: e.path := by
  obtain ⟨below, cause, _, rfl⟩ := mem_errors_iff.mp h
  exact List.prefix_append path below

theorem keysOf_append (path others : ResponsePath) :
    keysOf (path ++ others) = keysOf path ++ keysOf others :=
  List.filterMap_append

theorem filter_itemsErrors {q : FieldError → Bool} {path : ResponsePath}
    {pairs : List (Finding × Finding)} (start : Nat)
    (h : ∀ pair ∈ pairs, ∀ i, (pair.1.errors (path ++ [.index i])).filter q =
      (pair.2.errors (path ++ [.index i])).filter q) :
    (itemsErrors path start (pairs.map Prod.fst)).filter q =
      (itemsErrors path start (pairs.map Prod.snd)).filter q := by
  induction pairs generalizing start with
  | nil => rfl
  | cons pair pairs ih =>
    have hrest := ih (start + 1) fun other hother => h other (List.mem_cons_of_mem _ hother)
    rw [List.map_cons, List.map_cons, itemsErrors, itemsErrors, List.filter_append,
      List.filter_append, h pair List.mem_cons_self, hrest]

theorem SameBut.errors (h : SameBut position f g) (path : ResponsePath) :
    (f.errors path).filter (fun e => !goesThrough (keysOf path ++ position) e.path) =
      (g.errors path).filter fun e => !goesThrough (keysOf path ++ position) e.path := by
  induction h generalizing path with
  | here f g =>
    have hnone : ∀ x : Finding, (x.errors path).filter
        (fun e => !goesThrough (keysOf path ++ []) e.path) = [] := by
      intro x
      rw [List.filter_eq_nil_iff]
      intro e he
      obtain ⟨below, hbelow⟩ := prefix_of_mem_errors he
      simp [goesThrough, ← hbelow, keysOf_append]
    rw [hnone, hnone]
  | same position f => rfl
  | @object front back key position f g _ ih =>
    have hkeys : keysOf path ++ key :: position = keysOf (path ++ [.key key]) ++ position := by
      simp [keysOf]
    rw [Finding.errors, Finding.errors, fieldsErrors_eq, fieldsErrors_eq, hkeys]
    simp only [List.flatMap_append, List.flatMap_cons, List.filter_append, ih]
  | @list key position pairs _ ih =>
    refine filter_itemsErrors 0 fun pair hpair i => ?_
    -- The index adds nothing to the keys on the way.
    have hkeys : keysOf (path ++ [.index i]) = keysOf path := by simp [keysOf]
    rw [← hkeys]
    exact ih pair hpair _

theorem sameBut_list {fs gs : List Finding} {key : String}
    (h : List.Forall₂ (SameBut (key :: position)) fs gs) :
    SameBut (key :: position) (.list fs) (.list gs) := by
  obtain ⟨hlen, hpairs⟩ := List.forall₂_iff_zip.mp h
  have hlist : SameBut (key :: position) (.list ((fs.zip gs).map Prod.fst))
      (.list ((fs.zip gs).map Prod.snd)) := .list fun pair hpair => hpairs hpair
  rwa [List.map_fst_zip (Nat.le_of_eq hlen), List.map_snd_zip (Nat.le_of_eq hlen.symm)] at hlist

end Finding

/-- The results of two computations are related, whatever states they start from. -/
abbrev Results {α β : Type} (V : α → β → Prop) (m : StateM σ α) (n : StateM σ β) : Prop :=
  Related (fun _ _ => True) V m n

section

variable {α β γ δ : Type} {V : α → β → Prop} {W : γ → δ → Prop}

theorem Results.imp {V' : α → β → Prop} {m : StateM σ α} {n : StateM σ β} (h : Results V m n)
    (himp : ∀ x y, V x y → V' x y) : Results V' m n :=
  fun a b hR => ⟨himp _ _ (h a b hR).1, trivial⟩

theorem Results.mapM {f : α → StateM σ γ} {g : β → StateM σ δ} {as : List α} {bs : List β}
    (h : List.Forall₂ (fun a b => Results W (f a) (g b)) as bs) :
    Results (List.Forall₂ W) (as.mapM f) (bs.mapM g) := by
  induction h with
  | nil => exact .pure .nil
  | cons hfirst _ ih =>
    rw [List.mapM_cons, List.mapM_cons]
    refine Related.bind hfirst fun x y hxy => Related.bind ih fun xs ys hrest => ?_
    exact .pure (.cons hxy hrest)

end

theorem Replaced.exists_cons {position : List String} {before after : List Selection}
    (h : Replaced position before after) : ∃ key rest, position = key :: rest := by
  cases h with
  | here => exact ⟨_, _, rfl⟩
  | inside => exact ⟨_, _, rfl⟩

theorem Replaced.isEmpty_eq {position : List String} {before after : List Selection}
    (h : Replaced position before after) : before.isEmpty = after.isEmpty := by
  cases h with
  | here front | inside front => cases front <;> rfl

theorem exploreFields_steady {selections : List Selection} {typeName : String}
    {source : Option NodeRef}
    (each : ∀ s ∈ selections, Results Eq (exploreField schema store typeName source s)
      (exploreField schema store typeName source s)) :
    Results Eq (exploreFields schema store typeName source selections)
      (exploreFields schema store typeName source selections) := by
  induction selections with
  | nil => exact .pure rfl
  | cons s selections ih =>
    rw [exploreFields]
    refine Related.bind (each s List.mem_cons_self) ?_
    rintro x _ rfl
    refine Related.bind (ih fun other hmem => each other (List.mem_cons_of_mem _ hmem)) ?_
    rintro xs _ rfl
    exact .pure rfl

theorem exploreFields_middle {W : Finding → Finding → Prop} {typeName : String}
    {source : Option NodeRef} (front back : List Selection) {s t : Selection}
    (hkey : t.responseKey = s.responseKey)
    (h : Results W (exploreField schema store typeName source s)
      (exploreField schema store typeName source t))
    (hothers : ∀ other, Results Eq (exploreField schema store typeName source other)
      (exploreField schema store typeName source other)) :
    Results (fun xs ys => ∃ fs gs f g, xs = fs ++ (s.responseKey, f) :: gs ∧
        ys = fs ++ (s.responseKey, g) :: gs ∧ W f g)
      (exploreFields schema store typeName source (front ++ s :: back))
      (exploreFields schema store typeName source (front ++ t :: back)) := by
  induction front with
  | nil =>
    rw [List.nil_append, List.nil_append, exploreFields, exploreFields, hkey]
    refine Related.bind h fun f g hfg => ?_
    refine Related.bind (exploreFields_steady fun other _ => hothers other) ?_
    rintro gs _ rfl
    exact .pure ⟨[], gs, f, g, rfl, rfl, hfg⟩
  | cons other front ih =>
    rw [List.cons_append, List.cons_append, exploreFields, exploreFields]
    refine Related.bind (hothers other) ?_
    rintro x _ rfl
    refine Related.bind ih ?_
    rintro _ _ ⟨fs, gs, f, g, rfl, rfl, hfg⟩
    exact .pure ⟨(other.responseKey, x) :: fs, gs, f, g, rfl, rfl, hfg⟩

section

variable (hs : store.Steady)

include hs

theorem execute_steady (text : String) : Results Eq (store.execute text) (store.execute text) := by
  obtain ⟨reply, hreply⟩ := hs
  intro a b _
  rw [Store.execute_eq, Store.execute_eq, hreply, hreply]
  exact ⟨rfl, trivial⟩

theorem resolve_steady (r : Resolver) (source : Option NodeRef) (arguments : Arguments) :
    Results Eq (r.resolve store source arguments) (r.resolve store source arguments) := by
  unfold Resolver.resolve
  cases r.statement source arguments with
  | error fault => exact .pure rfl
  | ok sent =>
    cases sent with
    | none =>
      dsimp only
      cases r.requireSource source with
      | error fault => exact .pure rfl
      | ok node => exact .pure rfl
    | some text =>
      show Results Eq ((store.execute text).run >>= ExceptT.bindCont _)
        ((store.execute text).run >>= ExceptT.bindCont _)
      refine Related.bind (execute_steady hs text) ?_
      rintro x _ rfl
      cases x with
      | error e => exact .pure rfl
      | ok table => exact .pure rfl

theorem resolveField_steady (typeName : String) (source : Option NodeRef) (s : Selection) :
    Results Eq (resolveField schema store typeName source s)
      (resolveField schema store typeName source s) := by
  unfold resolveField
  split
  · exact .pure rfl
  · split
    · exact .pure rfl
    · refine Related.bind (resolve_steady hs _ _ _) ?_
      rintro x _ rfl
      cases x with
      | error e => exact .pure rfl
      | ok resolved => exact .pure rfl

theorem exploreField_results {V : List (String × Finding) → List (String × Finding) → Prop}
    {W : Finding → Finding → Prop} {s : Selection} {selections : List Selection}
    (hempty : s.selections.isEmpty = selections.isEmpty)
    (hsame : ∀ f, W f f) (hobject : ∀ xs ys, V xs ys → W (.object xs) (.object ys))
    (hlist : ∀ xs ys, List.Forall₂ W xs ys → W (.list xs) (.list ys))
    (below : ∀ typeName source, Results V (exploreFields schema store typeName source s.selections)
      (exploreFields schema store typeName source selections))
    (typeName : String) (source : Option NodeRef) :
    Results W (exploreField schema store typeName source s)
      (exploreField schema store typeName source { s with selections := selections }) := by
  have hnode : ∀ declared node, Results W
      (exploreNode schema s declared node fun concrete =>
        exploreFields schema store concrete (some node) s.selections)
      (exploreNode schema { s with selections := selections } declared node fun concrete =>
        exploreFields schema store concrete (some node) selections) := by
    intro declared node
    have htype : nodeType schema { s with selections := selections } declared node =
        nodeType schema s declared node := by
      unfold nodeType
      rw [hempty]
    unfold exploreNode
    rw [htype]
    cases nodeType schema s declared node with
    | error fault => exact .pure (hsame _)
    | ok concrete =>
      refine Related.bind (below concrete (some node)) fun xs ys h => ?_
      exact .pure (hobject xs ys h)
  have hresolve : Results Eq (resolveField schema store typeName source s)
      (resolveField schema store typeName source s) := resolveField_steady hs typeName source s
  obtain ⟨name, shownAs, arguments, others⟩ := s
  rw [exploreField, exploreField]
  refine Related.bind hresolve ?_
  rintro resolution _ rfl
  cases resolution with
  | typeName => exact .pure (hsame _)
  | failed e => exact .pure (hsame _)
  | scalar value => exact .pure (hsame _)
  | absent => exact .pure (hsame _)
  | single declared node => exact hnode declared node
  | many declared nodes =>
    refine Related.bind (Results.mapM (List.forall₂_same.mpr fun node _ => hnode declared node)) ?_
    intro xs ys h
    exact .pure (hlist xs ys h)

/-- With a store that has one reply to each statement, what is found does not depend on its
state. -/
theorem exploreField_steady (s : Selection) (typeName : String) (source : Option NodeRef) :
    Results Eq (exploreField schema store typeName source s)
      (exploreField schema store typeName source s) := by
  induction s using Selection.induction generalizing typeName source with
  | below s ih =>
    have hlist : ∀ xs ys : List Finding, List.Forall₂ Eq xs ys →
        Finding.list xs = Finding.list ys := by
      intro xs ys h
      rw [List.forall₂_eq_eq_eq] at h
      rw [h]
    obtain ⟨name, shownAs, arguments, selections⟩ := s
    exact exploreField_results hs rfl (fun _ => rfl) (fun _ _ h => congrArg Finding.object h) hlist
      (fun typeName source => exploreFields_steady fun t ht => ih t ht typeName source)
      typeName source

/-- What is found is the same but at the position of the selection that was replaced. -/
theorem exploreFields_replaced {position : List String} {before after : List Selection}
    (h : Replaced position before after) (typeName : String) (source : Option NodeRef) :
    Results (fun xs ys => Finding.SameBut position (.object xs) (.object ys))
      (exploreFields schema store typeName source before)
      (exploreFields schema store typeName source after) := by
  induction h generalizing typeName source with
  | @here front back s t hkey =>
    have hany : Results (fun _ _ => True) (exploreField schema store typeName source s)
        (exploreField schema store typeName source t) := fun _ _ _ => ⟨trivial, trivial⟩
    have hmiddle := exploreFields_middle front back hkey hany
      fun other => exploreField_steady hs other typeName source
    refine Results.imp hmiddle ?_
    rintro _ _ ⟨fs, gs, f, g, rfl, rfl, _⟩
    exact .object fs gs (.here f g)
  | @inside front back s position selections h ih =>
    obtain ⟨key, rest, rfl⟩ := h.exists_cons
    have hfield := exploreField_results hs h.isEmpty_eq (Finding.SameBut.same (key :: rest))
      (fun _ _ h => h) (fun _ _ h => Finding.sameBut_list h) ih typeName source
    have hkey : ({ s with selections := selections } : Selection).responseKey = s.responseKey := rfl
    have hmiddle := exploreFields_middle front back hkey hfield
      fun other => exploreField_steady hs other typeName source
    refine Results.imp hmiddle ?_
    rintro _ _ ⟨fs, gs, f, g, rfl, rfl, hfg⟩
    exact .object fs gs hfg

/-- With a store that has one reply to each statement, another selection at a position, whatever it
asks for, leaves all data but what is on the way through that position as it was, and all errors
that are not below the position. The states of the store play no part, and neither do response keys
that are shared. -/
theorem siblings_unaffected {position : List String} {before after : List Selection}
    (h : Replaced position before after) {a b : σ} {x y : Response}
    (hx : (execute schema store before a).1 = x) (hy : (execute schema store after b).1 = y) :
    x.data.blank position = y.data.blank position ∧
      (∀ path, ¬position <+: keysOf path → ¬keysOf path <+: position →
        x.data.follow path = y.data.follow path) ∧
      x.errors.filter (fun e => !goesThrough position e.path) =
        y.errors.filter fun e => !goesThrough position e.path := by
  have hfound : Results (Finding.SameBut position) (explore schema store before)
      (explore schema store after) :=
    Related.bind (exploreFields_replaced hs h _ none) fun _ _ hsame => .pure hsame
  obtain ⟨hsame, _⟩ := hfound a b trivial
  rw [execute_report] at hx hy
  have hdata : x.data.blank position = y.data.blank position := by
    rw [← hx, ← hy]
    exact hsame.data
  refine ⟨hdata, fun path hthrough habove => ?_, ?_⟩
  · rw [← Json.follow_blank x.data hthrough habove, hdata, Json.follow_blank _ hthrough habove]
  · rw [← hx, ← hy]
    exact hsame.errors []

end

def Store.frozen (s : Store σ) (state : σ) : Store Unit where
  submit statement _ := ((s.submit statement state).1, ())

theorem Store.frozen_steady (s : Store σ) (state : σ) : (s.frozen state).Steady :=
  ⟨fun statement => (s.submit statement state).1, fun _ _ => rfl⟩

def idSelection : Selection := ⟨"_id", none, [], []⟩

def titleSelection : Selection := ⟨"title", none, [], []⟩

def subtitleSelection : Selection := ⟨"subtitle", some "title", [], []⟩

def postSelection (shown : Selection) : Selection := ⟨"posts", none, [], [idSelection, shown]⟩

/-- The title of the only post fails, and its number stays. -/
theorem post_without_title :
    ∃ x y : Response,
      (execute Schema.dataset (memoryStore.frozen (Graph.empty.addNode (some "Post") .empty))
        [postSelection titleSelection] ()).1 = x ∧
      (execute Schema.dataset (memoryStore.frozen (Graph.empty.addNode (some "Post") .empty))
        [postSelection subtitleSelection] ()).1 = y ∧
      x.errors = [] ∧ y.errors.map FieldError.path = [[.key "posts", .index 0, .key "title"]] ∧
      x.data.blank ["posts", "title"] = y.data.blank ["posts", "title"] ∧
      x.data.follow [.key "posts", .index 0, .key "_id"] =
        y.data.follow [.key "posts", .index 0, .key "_id"] ∧
      y.errors.filter (fun e => !goesThrough ["posts", "title"] e.path) = [] := by
  obtain ⟨x, hx, hfine⟩ : ∃ x : Response,
      (execute Schema.dataset (memoryStore.frozen (Graph.empty.addNode (some "Post") .empty))
        [postSelection titleSelection] ()).1 = x ∧ x.errors = [] := ⟨_, rfl, by decide +kernel⟩
  obtain ⟨y, hy, hpaths⟩ : ∃ y : Response,
      (execute Schema.dataset (memoryStore.frozen (Graph.empty.addNode (some "Post") .empty))
        [postSelection subtitleSelection] ()).1 = y ∧
      y.errors.map FieldError.path = [[.key "posts", .index 0, .key "title"]] :=
    ⟨_, rfl, by decide +kernel⟩
  have hreplaced : Replaced ["posts", "title"] [postSelection titleSelection]
      [postSelection subtitleSelection] :=
    .inside [] [] (s := postSelection titleSelection) (.here [idSelection] []
      (s := titleSelection) (t := subtitleSelection) rfl)
  obtain ⟨hdata, hfollow, herrors⟩ :=
    siblings_unaffected (memoryStore.frozen_steady _) hreplaced hx hy
  refine ⟨x, y, hx, hy, hfine, hpaths, hdata, hfollow _ (by decide) (by decide), ?_⟩
  rw [← herrors, hfine]
  rfl

end FieldGraph
