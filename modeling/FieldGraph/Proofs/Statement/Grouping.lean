import FieldGraph.Proofs.Outcome
import FieldGraph.Proofs.Statement.Comparable
import FieldGraph.Proofs.Store.NaNFree
import FieldGraph.Statement.Projection
import Mathlib.Algebra.Ring.Int.Defs
import Mathlib.Data.List.Forall2

/-!
# Counting rows

A result with counts has one row for each tuple of values in the other columns, in the order in
which the tuples first occur, and each count is the number of rows with the tuple. So the counts of
a column add up to the number of all rows.
-/
namespace FieldGraph

/-- What a column shows of a row; a count shows nothing of it. -/
def ReturnItem.operand? (item : ReturnItem) : Option Operand :=
  match item.projection with
  | .value operand => some operand
  | .count _ => none

def valueTuple (g : Graph) (items : List ReturnItem) (row : Row) : Evaluation (List Value) :=
  (items.filterMap ReturnItem.operand?).mapM (Operand.eval g row)

/-- The cells hold the values in the columns that are not counts, and the number in all others. -/
inductive Tabulates (count : Nat) : List ReturnItem → List Value → List Value → Prop
  | nil : Tabulates count [] [] []
  | value {operand : Operand} {column : String} {items : List ReturnItem} {v : Value}
      {values cells : List Value} (h : Tabulates count items values cells) :
      Tabulates count (⟨.value operand, column⟩ :: items) (v :: values) (v :: cells)
  | count {name column : String} {items : List ReturnItem} {values cells : List Value}
      (h : Tabulates count items values cells) :
      Tabulates count (⟨.count name, column⟩ :: items) values (.int (Int64.ofNat count) :: cells)

def numberAt (i : Nat) (cells : List Value) : Int :=
  match cells[i]? with
  | some (.int n) => n.toInt
  | _ => 0

variable {g : Graph} {items : List ReturnItem} {row : Row} {key : List Value}

theorem valueTuple_of_collect (h : collect (ReturnItem.eval g row) items = .ok key) :
    valueTuple g items row = .ok key := by
  induction items generalizing key with
  | nil => exact h
  | cons item items ih =>
    obtain ⟨first, hfirst, h⟩ := bind_eq_ok.mp h
    obtain ⟨others, hothers, h⟩ := bind_eq_ok.mp h
    cases h
    have hrest := ih hothers
    obtain ⟨projection, column⟩ := item
    cases projection with
    | value operand =>
      obtain ⟨v, hv, hfirst⟩ := bind_eq_ok.mp hfirst
      cases hfirst
      have hoperands : (⟨.value operand, column⟩ :: items).filterMap ReturnItem.operand? =
          operand :: items.filterMap ReturnItem.operand? := rfl
      rw [valueTuple] at hrest ⊢
      rw [hoperands, List.mapM_cons, hv, hrest]
      rfl
    | count name =>
      obtain ⟨_, _, hfirst⟩ := bind_eq_ok.mp hfirst
      cases hfirst
      exact hrest

theorem Operand.nanFree_of_eval {o : Operand} {v : Value} (hg : g.NaNFree)
    (ho : ∀ value, o = .literal value → ¬value.HasNaN) (h : o.eval g row = .ok v) :
    ¬v.HasNaN := by
  cases o with
  | literal value =>
    cases h
    exact ho _ rfl
  | id name =>
    obtain ⟨binding, _, h⟩ := bind_eq_ok.mp h
    cases binding <;> cases h <;> exact nofun
  | property name key =>
    obtain ⟨binding, _, h⟩ := bind_eq_ok.mp h
    cases binding with
    | edge _ =>
      cases h
      exact nofun
    | node id =>
      cases h
      cases hfound : (g.node? id).bind (·.properties.get? key) with
      | none => exact nofun
      | some value =>
        obtain ⟨n, hn, hvalue⟩ := Option.bind_eq_some_iff.mp hfound
        exact hg n (Array.mem_of_getElem? hn) key value hvalue
  | labels name =>
    obtain ⟨binding, _, h⟩ := bind_eq_ok.mp h
    cases binding with
    | edge _ => cases h
    | node id =>
      cases h
      rintro (_ | ⟨hmem, hnan⟩)
      obtain ⟨label, _, rfl⟩ := List.mem_map.mp hmem
      cases hnan

theorem nanFree_of_valueTuple (hg : g.NaNFree) (hitems : ∀ item ∈ items, item.NaNFree)
    (h : valueTuple g items row = .ok key) : ∀ v ∈ key, ¬v.HasNaN := by
  intro v hv
  obtain ⟨o, ho, heval⟩ := mem_of_mapM h hv
  obtain ⟨item, hitem, hoperand⟩ := List.mem_filterMap.mp ho
  apply Operand.nanFree_of_eval hg ?_ heval
  rintro value rfl
  apply hitems item hitem value
  obtain ⟨projection, column⟩ := item
  cases projection with
  | value operand =>
    cases hoperand
    rfl
  | count name => cases hoperand

/-- The groups of rows with the given tuples, added to those before them. -/
def tally (groups : List Group) (keys : List (List Value)) : List Group :=
  keys.foldl (fun groups key => countInto key groups) groups

variable {groups found : List Group} {rows : List Row} {keys : List (List Value)}

theorem tally_of_groupRows (h : groupRows g items groups rows = .ok found) :
    ∃ keys, rows.mapM (valueTuple g items) = .ok keys ∧ found = tally groups keys := by
  induction rows generalizing groups with
  | nil =>
    cases h
    exact ⟨[], rfl, rfl⟩
  | cons row rows ih =>
    obtain ⟨key, hkey, h⟩ := bind_eq_ok.mp h
    obtain ⟨keys, hkeys, rfl⟩ := ih h
    refine ⟨key :: keys, ?_, rfl⟩
    rw [List.mapM_cons, valueTuple_of_collect hkey, hkeys]
    rfl

theorem groupRows_of_collect {keyOf : Row → List Value}
    (h : ∀ row ∈ rows, collect (ReturnItem.eval g row) items = .ok (keyOf row)) :
    groupRows g items groups rows = .ok (tally groups (rows.map keyOf)) := by
  induction rows generalizing groups with
  | nil => rfl
  | cons row rows ih =>
    obtain ⟨hrow, hrows⟩ := List.forall_mem_cons.mp h
    rw [groupRows, hrow]
    exact ih hrows

theorem sum_countInto (key : List Value) (groups : List Group) :
    ((countInto key groups).map Group.size).sum = (groups.map Group.size).sum + 1 := by
  induction groups with
  | nil => rfl
  | cons group groups ih =>
    rw [countInto]
    split
    · simp only [List.map_cons, List.sum_cons]
      omega
    · simp only [List.map_cons, List.sum_cons, ih]
      omega

theorem sum_tally (groups : List Group) (keys : List (List Value)) :
    ((tally groups keys).map Group.size).sum = (groups.map Group.size).sum + keys.length := by
  induction keys generalizing groups with
  | nil => rfl
  | cons key keys ih =>
    have hrest := ih (countInto key groups)
    rw [sum_countInto] at hrest
    rw [List.length_cons, ← Nat.add_assoc, Nat.add_right_comm]
    exact hrest

/-- The first group takes what is equal to its key, and the others go on with what is left. -/
theorem tally_cons (group : Group) (groups : List Group) (keys : List (List Value)) :
    tally (group :: groups) keys =
      { group with size := group.size + keys.countP (Value.sameAll group.key) } ::
        tally groups (keys.filter fun key => !Value.sameAll group.key key) := by
  induction keys generalizing group groups with
  | nil => rfl
  | cons key keys ih =>
    have hstep : tally (group :: groups) (key :: keys) =
        tally (countInto key (group :: groups)) keys := rfl
    rw [hstep, countInto]
    by_cases hsame : Value.sameAll group.key key = true
    · rw [if_pos hsame, ih, List.countP_cons_of_pos hsame,
        List.filter_cons_of_neg (by simp [hsame]), Nat.add_assoc, Nat.add_comm 1]
    · rw [if_neg hsame, ih, List.countP_cons_of_neg hsame,
        List.filter_cons_of_pos (by simpa using hsame)]
      rfl

theorem mem_of_mem_eraseDupsBy {α : Type} {r : α → α → Bool} {a : α} :
    ∀ l : List α, a ∈ l.eraseDupsBy r → a ∈ l
  | [], h => h
  | b :: l, h => by
    rw [List.eraseDupsBy_cons] at h
    rcases List.mem_cons.mp h with rfl | h
    · exact List.mem_cons_self
    · have hmem := mem_of_mem_eraseDupsBy (l.filter _) h
      exact List.mem_cons_of_mem _ (List.mem_filter.mp hmem).1
termination_by l => l.length
decreasing_by exact Nat.lt_succ_of_le (List.length_filter_le _ _)

theorem countP_filter_other {key other : List Value} (h : Value.sameAll key other = false)
    (keys : List (List Value)) :
    (keys.filter fun k => !Value.sameAll key k).countP (Value.sameAll other) =
      keys.countP (Value.sameAll other) := by
  rw [List.countP_filter]
  apply List.countP_congr
  intro k _
  constructor
  · intro hk
    exact (Bool.and_eq_true_iff.mp hk).1
  · intro hk
    rw [Bool.and_eq_true]
    refine ⟨hk, ?_⟩
    rw [Bool.not_eq_true', Bool.eq_false_iff]
    intro hkey
    rw [Value.sameAll_comm] at hk
    rw [Value.sameAll_trans key hkey hk] at h
    cases h

/-- There is one group for each tuple, in the order in which they first occur, and its size is the
number of times that the tuple occurs. -/
theorem tally_eq : ∀ keys : List (List Value), (∀ key ∈ keys, Value.sameAll key key = true) →
    tally [] keys =
      (keys.eraseDupsBy Value.sameAll).map fun key => ⟨key, keys.countP (Value.sameAll key)⟩
  | [], _ => rfl
  | key :: keys, h => by
    obtain ⟨hkey, hkeys⟩ := List.forall_mem_cons.mp h
    have hothers : (keys.filter fun k => decide (Value.sameAll k key = false)) =
        keys.filter fun k => !Value.sameAll key k := by
      apply List.filter_congr
      intro k _
      rw [Value.sameAll_comm k key]
      cases Value.sameAll key k <;> rfl
    have hfirst : tally [] (key :: keys) = tally [⟨key, 1⟩] keys := rfl
    have hrest := tally_eq (keys.filter fun k => !Value.sameAll key k)
      fun k hk => hkeys k (List.mem_filter.mp hk).1
    rw [hfirst, tally_cons, hrest, List.eraseDupsBy_cons, hothers, List.map_cons,
      List.countP_cons_of_pos hkey, Nat.add_comm 1]
    congr 1
    apply List.map_congr_left
    intro other hother
    have hmem := mem_of_mem_eraseDupsBy _ hother
    have hne : Value.sameAll key other = false := by simpa using (List.mem_filter.mp hmem).2
    have hne' : ¬Value.sameAll other key = true := by
      rw [Value.sameAll_comm, hne]
      exact Bool.false_ne_true
    rw [countP_filter_other hne, List.countP_cons_of_neg hne']
termination_by keys => keys.length
decreasing_by exact Nat.lt_succ_of_le (List.length_filter_le _ _)

section

variable {size i : Nat} {item : ReturnItem}

theorem tabulates_cells (h : key.length = (items.filterMap ReturnItem.operand?).length) :
    Tabulates size items key (Group.cells size items key) := by
  induction items generalizing key with
  | nil =>
    rw [List.eq_nil_of_length_eq_zero h]
    exact .nil
  | cons item items ih =>
    obtain ⟨projection, column⟩ := item
    cases projection with
    | value operand =>
      cases key with
      | nil => cases h
      | cons v key => exact .value (ih (Nat.succ.inj h))
    | count name => exact .count (ih h)

theorem cells_of_counts (key : List Value) (h : ∀ item ∈ items, item.isCount = true) :
    Group.cells size items key = items.map fun _ => .int (Int64.ofNat size) := by
  induction items with
  | nil => rfl
  | cons item items ih =>
    obtain ⟨hitem, hitems⟩ := List.forall_mem_cons.mp h
    rw [Group.cells, if_pos hitem, ih hitems, List.map_cons]

theorem numberAt_cells (hitem : items[i]? = some item) (hcount : item.isCount = true)
    (hsize : size < 2 ^ 63) : numberAt i (Group.cells size items key) = size := by
  induction items generalizing i key with
  | nil => cases hitem
  | cons first items ih =>
    cases i with
    | zero =>
      cases hitem
      rw [Group.cells, if_pos hcount]
      exact Int64.toInt_ofNat_of_lt hsize
    | succ i =>
      rw [Group.cells]
      split
      · exact ih hitem
      · exact ih hitem

theorem sum_numberAt (hitem : items[i]? = some item) (hcount : item.isCount = true)
    {groups : List Group} (hsize : (groups.map Group.size).sum < 2 ^ 63) :
    ((groups.map fun group => Group.cells group.size items group.key).map (numberAt i)).sum =
      (groups.map Group.size).sum := by
  induction groups with
  | nil => rfl
  | cons group groups ih =>
    rw [List.map_cons, List.sum_cons] at hsize
    have hfirst : numberAt i (Group.cells group.size items group.key) = group.size :=
      numberAt_cells hitem hcount (by omega)
    have hothers := ih (by omega)
    rw [List.map_cons, List.map_cons, List.sum_cons, hfirst, hothers, List.map_cons, List.sum_cons,
      Int.natCast_add]

end

theorem operands_of_counts (h : ∀ item ∈ items, item.isCount = true) :
    items.filterMap ReturnItem.operand? = [] := by
  rw [List.filterMap_eq_nil_iff]
  intro item hitem
  obtain ⟨projection, column⟩ := item
  cases projection with
  | value operand => cases h _ hitem
  | count name => rfl

theorem length_of_valueTuple (h : valueTuple g items row = .ok key) :
    key.length = (items.filterMap ReturnItem.operand?).length :=
  length_of_mapM h

theorem tally_of_nil (h : ∀ key ∈ keys, key = []) :
    tally [] keys = if keys = [] then [] else [⟨[], keys.length⟩] := by
  cases keys with
  | nil => rfl
  | cons key keys =>
    obtain ⟨rfl, hkeys⟩ := List.forall_mem_cons.mp h
    have hfirst : tally [] ([] :: keys) = tally [⟨[], 1⟩] keys := rfl
    have hsame : ∀ key ∈ keys, Value.sameAll [] key = true := by
      intro key hkey
      rw [hkeys key hkey]
      rfl
    have hcount : keys.countP (Value.sameAll []) = keys.length := List.countP_eq_length.mpr hsame
    have hothers : (keys.filter fun key => !Value.sameAll [] key) = [] := by
      rw [List.filter_eq_nil_iff]
      intro key hkey
      simp [hsame key hkey]
    rw [hfirst, tally_cons, hcount, hothers, if_neg (List.cons_ne_nil _ _), List.length_cons,
      Nat.add_comm]
    rfl

/-- The groups that make up a result: if all columns are counts then there is always one. -/
def resultGroups (items : List ReturnItem) (tuples : List (List Value)) : List Group :=
  if (tally [] tuples).isEmpty && items.all ReturnItem.isCount then [⟨[], 0⟩] else tally [] tuples

section

variable {table : List (List Value)} {tuples : List (List Value)}

theorem table_of_project (hcount : items.any ReturnItem.isCount = true)
    (h : project g items rows = .ok table) :
    ∃ tuples, rows.mapM (valueTuple g items) = .ok tuples ∧
      table = (resultGroups items tuples).map fun group => Group.cells group.size items group.key := by
  unfold project at h
  rw [if_pos hcount] at h
  obtain ⟨groups, hgroups, h⟩ := bind_eq_ok.mp h
  obtain ⟨tuples, htuples, rfl⟩ := tally_of_groupRows hgroups
  cases h
  exact ⟨tuples, htuples, rfl⟩

theorem resultGroups_of_value (h : ∃ item ∈ items, item.isCount = false)
    (hself : ∀ tuple ∈ tuples, Value.sameAll tuple tuple = true) :
    resultGroups items tuples = (tuples.eraseDupsBy Value.sameAll).map fun tuple =>
      ⟨tuple, tuples.countP (Value.sameAll tuple)⟩ := by
  obtain ⟨item, hitem, hvalue⟩ := h
  have hmixed : items.all ReturnItem.isCount = false := by
    rw [List.all_eq_false]
    exact ⟨item, hitem, by simp [hvalue]⟩
  rw [resultGroups, hmixed, Bool.and_false, if_neg Bool.false_ne_true, tally_eq tuples hself]

theorem resultGroups_of_counts (h : ∀ item ∈ items, item.isCount = true)
    (hnil : ∀ tuple ∈ tuples, tuple = []) :
    resultGroups items tuples = [⟨[], tuples.length⟩] := by
  have hall : items.all ReturnItem.isCount = true := List.all_eq_true.mpr h
  rw [resultGroups, hall, Bool.and_true, tally_of_nil hnil]
  by_cases hempty : tuples = []
  · rw [if_pos hempty, hempty]
    rfl
  · rw [if_neg hempty]
    rfl

theorem project_of_counts (hcount : items.any ReturnItem.isCount = true)
    (hcounts : ∀ item ∈ items, item.isCount = true)
    (h : ∀ row ∈ rows, collect (ReturnItem.eval g row) items = .ok []) :
    project g items rows = .ok [items.map fun _ => .int (Int64.ofNat rows.length)] := by
  have hnil : ∀ tuple ∈ rows.map fun _ => ([] : List Value), tuple = [] := by
    intro tuple htuple
    obtain ⟨_, _, rfl⟩ := List.mem_map.mp htuple
    rfl
  have hgroups := resultGroups_of_counts hcounts hnil
  rw [List.length_map] at hgroups
  rw [project, if_pos hcount, groupRows_of_collect h]
  show Except.ok ((resultGroups items _).map _) = _
  rw [hgroups, ← cells_of_counts [] hcounts]
  rfl

theorem sum_resultGroups (items : List ReturnItem) (tuples : List (List Value)) :
    ((resultGroups items tuples).map Group.size).sum = tuples.length := by
  have hsum : ((tally [] tuples).map Group.size).sum = tuples.length :=
    (sum_tally [] tuples).trans (Nat.zero_add _)
  rw [resultGroups]
  split
  case isTrue hnone =>
    have hempty := List.isEmpty_iff.mp (Bool.and_eq_true_iff.mp hnone).1
    rw [← hsum, hempty]
    rfl
  case isFalse => exact hsum

end

/-- A graph without not-a-number stays so, whatever statement is run, and no statement writes it in
a column. Of any rows of the graph a result with a count has one row for each tuple of values in the
other columns, in the order in which the tuples first occur, and its counts are the number of rows
with the tuple. If all columns are counts then there is one row, of the number of all rows. So a
column of counts adds up to the number of rows; a list of them in memory is shorter than the
bound. -/
theorem counts_of_project (hg : g.NaNFree) :
    (∀ statement, (memoryStore.submit statement g).2.NaNFree ∧
      ∀ script, Script.parse statement = .ok script → ∀ query ∈ script, ∀ items,
        .result items ∈ query → ∀ item ∈ items, item.NaNFree) ∧
    ∀ items rows table, (∀ item ∈ items, item.NaNFree) → items.any ReturnItem.isCount = true →
      project g items rows = .ok table →
      ∃ tuples, rows.mapM (valueTuple g items) = .ok tuples ∧
        ((∃ item ∈ items, item.isCount = false) →
          List.Forall₂
            (fun tuple => Tabulates (tuples.countP (Value.sameAll tuple)) items tuple)
            (tuples.eraseDupsBy Value.sameAll) table) ∧
        ((∀ item ∈ items, item.isCount = true) →
          table = [items.map fun _ => .int (Int64.ofNat rows.length)]) ∧
        ∀ i item, items[i]? = some item → item.isCount = true → rows.length < 2 ^ 63 →
          (table.map (numberAt i)).sum = rows.length := by
  constructor
  · intro statement
    refine ⟨submit_nanFree hg rfl, ?_⟩
    intro script hparse query hquery items hmem
    exact Script.nanFree_of_parse hparse hquery hmem
  intro items rows table hitems hcount h
  obtain ⟨tuples, htuples, rfl⟩ := table_of_project hcount h
  have hlength : tuples.length = rows.length := length_of_mapM htuples
  refine ⟨tuples, htuples, ?_, ?_, ?_⟩
  · intro hvalue
    have hself : ∀ tuple ∈ tuples, Value.sameAll tuple tuple = true := by
      intro tuple htuple
      obtain ⟨row, _, hrow⟩ := mem_of_mapM htuples htuple
      apply Value.sameAll_self
      intro v hv
      exact Value.same_self (nanFree_of_valueTuple hg hitems hrow v hv)
    rw [resultGroups_of_value hvalue hself, List.map_map, List.forall₂_map_right_iff,
      List.forall₂_same]
    intro tuple htuple
    obtain ⟨row, _, hrow⟩ := mem_of_mapM htuples (mem_of_mem_eraseDupsBy _ htuple)
    exact tabulates_cells (length_of_valueTuple hrow)
  · intro hcounts
    have hnil : ∀ tuple ∈ tuples, tuple = [] := by
      intro tuple htuple
      obtain ⟨row, _, hrow⟩ := mem_of_mapM htuples htuple
      have hshort := length_of_valueTuple hrow
      rw [operands_of_counts hcounts] at hshort
      exact List.eq_nil_of_length_eq_zero hshort
    rw [resultGroups_of_counts hcounts hnil, hlength]
    exact congrArg (fun cells => [cells]) (cells_of_counts [] hcounts)
  · intro i item hitem hitemCount hbound
    have hsum := sum_resultGroups items tuples
    rw [sum_numberAt hitem hitemCount (by omega), hsum, hlength]

def groupedByText : List ReturnItem :=
  [⟨.count "n", "count(n)"⟩, ⟨.value (.property "n" "text"), "n.text"⟩,
    ⟨.value (.literal (.float (.infinite false))), "1e400"⟩, ⟨.count "n", "count(n)"⟩]

theorem grouped_by_text :
    ∃ g rows table tuples,
      memoryStore.after .empty ["MERGE (:Post \x7btext: 'a'\x7d)", "MERGE (:Post)"] = g ∧
      rows = [[("n", .node 0)], [("n", .node 1)], [("n", .node 0)]] ∧
      project g groupedByText rows = .ok table ∧
      rows.mapM (valueTuple g groupedByText) = .ok tuples ∧
      List.Forall₂
        (fun tuple => Tabulates (tuples.countP (Value.sameAll tuple)) groupedByText tuple)
        (tuples.eraseDupsBy Value.sameAll) table ∧
      (table.map (numberAt 0)).sum = 3 ∧ (table.map (numberAt 3)).sum = 3 := by
  obtain ⟨g, hreached, hlength⟩ :
      ∃ g, memoryStore.after .empty ["MERGE (:Post \x7btext: 'a'\x7d)", "MERGE (:Post)"] = g ∧
        (project g groupedByText [[("n", .node 0)], [("n", .node 1)], [("n", .node 0)]]).toOption.map
          List.length = some 2 :=
    ⟨_, rfl, by decide +kernel⟩
  obtain ⟨table, htable, _⟩ := exists_ok_of_toOption hlength
  have hg : g.NaNFree := hreached ▸ after_nanFree nanFree_empty _
  have hitems : ∀ item ∈ groupedByText, item.NaNFree := by
    intro item hitem value hvalue
    simp only [groupedByText, List.mem_cons, List.not_mem_nil, or_false] at hitem
    rcases hitem with rfl | rfl | rfl | rfl
    all_goals cases hvalue
    exact nofun
  obtain ⟨tuples, htuples, hrows, _, hsum⟩ :=
    (counts_of_project hg).2 groupedByText _ table hitems rfl htable
  refine ⟨g, _, table, tuples, hreached, rfl, htable, htuples, ?_, ?_, ?_⟩
  · exact hrows ⟨⟨.value (.property "n" "text"), "n.text"⟩, by simp [groupedByText], rfl⟩
  · exact hsum 0 _ rfl rfl (by decide)
  · exact hsum 3 _ rfl rfl (by decide)

end FieldGraph
