import FieldGraph.Proofs.Field.Lookup
import FieldGraph.Proofs.Statement.Continuing
import FieldGraph.Proofs.Store.Growth
import FieldGraph.Proofs.Value.ReadBack

/-!
# Two ways to ask for a property

A statement can ask for the value of a property in the pattern of a node or in a condition. The
pattern compares values as they are, and the condition takes an integer for the floating-point
number nearest to it. So they find the same nodes unless a node stores a number of the other kind.
-/
namespace FieldGraph

/-- Two numbers of different kinds that a condition takes for equal. -/
inductive Value.Converts : Value → Value → Prop
  | integer {i : Int64} {x : Binary64} (h : (Binary64.ofInt i.toInt).same x = true) :
      Converts (.int i) (.float x)
  | float {i : Int64} {x : Binary64} (h : (Binary64.ofInt i.toInt).same x = true) :
      Converts (.float x) (.int i)

theorem Value.Converts.not_same {a b : Value} (h : a.Converts b) : a.same b = false := by
  cases h <;> rfl

theorem Value.equals_iff {a b : Value} : a.equals b = true ↔ a.same b = true ∨ a.Converts b := by
  constructor
  · intro h
    unfold equals at h
    split at h
    · exact .inr (.integer h)
    · exact .inr (.float h)
    · exact .inl h
  · rintro (h | h)
    · unfold equals
      split
      · cases h
      · cases h
      · exact h
    · cases h with
      | integer h => exact h
      | float h => exact h

def inlineText (key literal : String) : String :=
  "MATCH (n \x7b" ++ key ++ ": " ++ literal ++ "\x7d) RETURN id(n)"

def filterText (key literal : String) : String :=
  "MATCH (n) WHERE n." ++ key ++ " = " ++ literal ++ " RETURN id(n)"

def propertyEquals (key : String) (v : Value) : Comparison :=
  ⟨.property searchVariable key, .equals, .literal v⟩

variable {key literal : String} {v : Value} {ts : List Token} {g : Graph}

theorem spelled_inline (key : String) (h : v.Spelled ts) :
    Pattern.Spelled (.openParen :: .identifier searchVariable ::
      (.openBrace :: (.identifier key :: .colon :: ts ++ [.closeBrace]) ++ [.closeParen]))
      ⟨⟨searchVariable, none, [(key, v)]⟩, none⟩ := by
  have hpairs : PropertiesSpelled
      (.openBrace :: (.identifier key :: .colon :: ts ++ [.closeBrace])) [(key, v)] :=
    .braces (separated_singleton (.intro key h))
  exact .node (.intro (some searchVariable) none hpairs)

theorem spelled_propertyEquals (key : String) (h : v.Spelled ts) :
    FilterSpelled
      (.keyword .whereWord :: ([.identifier searchVariable, .dot, .identifier key] ++ .equals :: ts))
      [propertyEquals key v] := by
  apply FilterSpelled.conditions (List.cons_ne_nil _ _)
  exact separated_singleton (.intro (.property searchVariable key) .equals (.literal h))

def idText : List Char := " RETURN id(".toList ++ (searchVariable.toList ++ [')'])

theorem lexes_idText : Lexes idText []
    (.keyword .returnWord :: (Operand.id searchVariable).tokens) :=
  @Resolver.lexes_idResult searchVariable (by decide)

def inlineFront (key literal : String) : String :=
  "MATCH (n \x7b" ++ key ++ ": " ++ literal ++ "\x7d)"

def filterFront (key literal : String) : String := "MATCH (n) WHERE n." ++ key ++ " = " ++ literal

theorem toList_inlineText (key literal : String) :
    (inlineText key literal).toList = (inlineFront key literal).toList ++ idText := by
  have hclose : "\x7d) RETURN id(n)".toList = "\x7d)".toList ++ idText := rfl
  simp only [inlineText, inlineFront, String.toList_append, hclose, List.append_assoc]

theorem toList_filterText (key literal : String) :
    (filterText key literal).toList = (filterFront key literal).toList ++ idText := by
  have hresult : " RETURN id(n)".toList = idText := rfl
  unfold filterText filterFront
  simp only [String.toList_append, hresult]

theorem lexes_inlineFront (hkey : isPlainIdentifier key = true) {lexemes : List Lexeme}
    (hlex : lex literal.toList = .ok lexemes) (rest : List Char) :
    Lexes (inlineFront key literal).toList rest
      (.keyword .matchWord :: (.openParen :: .identifier searchVariable ::
        (.openBrace :: (.identifier key :: .colon :: lexemes.map Lexeme.token ++ [.closeBrace]) ++
          [.closeParen]))) := by
  have htext : (inlineFront key literal).toList = "MATCH (n".toList ++ ([' ', '\x7b'] ++
      (key.toList ++ ([':', ' '] ++ (literal.toList ++ ['\x7d', ')'])))) := by
    have hopen : "MATCH (n \x7b".toList = "MATCH (n".toList ++ [' ', '\x7b'] := rfl
    have hcolon : ": ".toList = [':', ' '] := rfl
    have hclose : "\x7d)".toList = ['\x7d', ')'] := rfl
    simp only [inlineFront, String.toList_append, hopen, hcolon, hclose, List.append_assoc]
  have hopen : ∀ rest, Lexes [' ', '\x7b'] rest [.openBrace] := fun rest =>
    Lexes.cons (Lexes.space _) (Lexes.sign rest (by simp [plainSigns]))
  have hname : ∀ rest, Lexes key.toList (':' :: rest) [.identifier key] := fun rest =>
    Lexes.identifier hkey (endsWord_cons rest (by decide))
  have hcolon : ∀ rest, Lexes [':', ' '] rest [.colon] := fun rest =>
    Lexes.cons (Lexes.sign _ (by simp [plainSigns])) (Lexes.space rest)
  have hliteral := Lexes.of_lex hlex (endsToken_cons (c := '\x7d') (')' :: rest) (by decide))
  have hclose : Lexes ['\x7d', ')'] rest [.closeBrace, .closeParen] :=
    Lexes.cons (Lexes.sign _ (by simp [plainSigns])) (Lexes.sign rest (by simp [plainSigns]))
  have hall := Lexes.append (Lexes.findOpen (endsWord_cons (c := ' ') _ (by decide)))
    (Lexes.append (hopen _) (Lexes.append (hname _) (Lexes.append (hcolon _)
      (Lexes.append hliteral hclose))))
  rw [htext]
  simpa using hall

theorem lexes_filterFront (hkey : isPlainIdentifier key = true) {lexemes : List Lexeme}
    (hlex : lex literal.toList = .ok lexemes) {rest : List Char} (hrest : EndsToken rest) :
    Lexes (filterFront key literal).toList rest
      (.keyword .matchWord :: (Search.pattern.tokens ++ (.keyword .whereWord ::
        ([.identifier searchVariable, .dot, .identifier key] ++
          .equals :: lexemes.map Lexeme.token)))) := by
  have htext : (filterFront key literal).toList = "MATCH (n) ".toList ++ ("WHERE ".toList ++
      (['n', '.'] ++ (key.toList ++ ([' ', '=', ' '] ++ literal.toList)))) := by
    have hopen : "MATCH (n) WHERE n.".toList =
      "MATCH (n) ".toList ++ ("WHERE ".toList ++ ['n', '.']) := rfl
    have hequals : " = ".toList = [' ', '=', ' '] := rfl
    unfold filterFront
    simp only [String.toList_append, hopen, hequals, List.append_assoc]
  have hvariable : ∀ rest, Lexes ['n', '.'] rest [.identifier searchVariable, .dot] := fun rest =>
    Lexes.append (a := ['n']) (Lexes.searchVariable (endsWord_cons _ (by decide)))
      (Lexes.sign rest (by simp [plainSigns]))
  have hname : ∀ rest, Lexes key.toList (' ' :: rest) [.identifier key] := fun rest =>
    Lexes.identifier hkey (endsWord_cons rest (by decide))
  have hequals : ∀ rest, Lexes [' ', '=', ' '] rest [.equals] := fun rest =>
    Lexes.cons (Lexes.space _) (Lexes.cons (Lexes.sign _ (by simp [plainSigns])) (Lexes.space rest))
  rw [htext]
  exact Lexes.append (Lexes.matchOpen _) (Lexes.append (Lexes.whereWord _)
    (Lexes.append (hvariable _) (Lexes.append (hname _)
      (Lexes.append (hequals _) (Lexes.of_lex hlex hrest)))))

theorem parse_inlineText (hkey : isPlainIdentifier key = true)
    (h : Value.readLiteral literal = .ok (v, [])) :
    ∃ column, Script.parse (inlineText key literal) =
      .ok [[.find ⟨⟨searchVariable, none, [(key, v)]⟩, none⟩ [],
        .result [⟨.value (.id searchVariable), column⟩]]] := by
  obtain ⟨lexemes, hlex, hspelled⟩ := Value.spelled_of_readLiteral h
  have hresult : (Operand.id searchVariable).Spelled (Operand.id searchVariable).tokens :=
    Operand.Writable.spelled trivial
  apply Script.parse_of_find_value_tokens (toList_inlineText key literal) ?_
    (spelled_inline key hspelled) .nothing hresult lexes_idText
  rw [List.append_nil]
  exact lexes_inlineFront hkey hlex idText

theorem parse_filterText (hkey : isPlainIdentifier key = true)
    (h : Value.readLiteral literal = .ok (v, [])) :
    ∃ column, Script.parse (filterText key literal) =
      .ok [[.find Search.pattern [propertyEquals key v],
        .result [⟨.value (.id searchVariable), column⟩]]] := by
  obtain ⟨lexemes, hlex, hspelled⟩ := Value.spelled_of_readLiteral h
  have hpattern : Search.pattern.Writable := by
    simp [Search.pattern, Pattern.Writable, NodePattern.Writable]
  have hends : EndsToken idText := endsToken_cons (c := ' ') _ (by decide)
  have hresult : (Operand.id searchVariable).Spelled (Operand.id searchVariable).tokens :=
    Operand.Writable.spelled trivial
  exact Script.parse_of_find_value_tokens (toList_filterText key literal)
    (lexes_filterFront hkey hlex hends) hpattern.spelled (spelled_propertyEquals key hspelled) hresult
    lexes_idText

def Graph.storing (g : Graph) (key : String) (v : Value) : List Node :=
  g.nodes.toList.filter fun n => (n.properties.get? key).any (·.same v)

def Graph.equalling (g : Graph) (key : String) (v : Value) : List Node :=
  g.nodes.toList.filter fun n => (n.properties.get? key).any (·.equals v)

theorem findRows_inline (g : Graph) (key : String) (v : Value) :
    findRows g ⟨⟨searchVariable, none, [(key, v)]⟩, none⟩ [] [] =
      .ok ((g.storing key v).map searchRow) := by
  have hadmits : ∀ n ∈ g.nodes.toList,
      NodePattern.admits ⟨searchVariable, none, [(key, v)]⟩ n =
        (n.properties.get? key).any (·.same v) :=
    fun n _ => Bool.and_true _
  rw [findRows_node, List.filter_congr hadmits]
  rfl

theorem passes_propertyEquals {n : Node} (hn : n ∈ g.nodes.toList) (hv : v.isNull = false) :
    (propertyEquals key v).passes g (searchRow n) =
      .ok ((n.properties.get? key).any (·.equals v)) := by
  have hpasses : (propertyEquals key v).passes g (searchRow n) =
      .ok (!((n.properties.get? key).getD .null).isNull &&
        ((n.properties.get? key).getD .null).equals v) := by
    simp [Comparison.passes, propertyEquals, Operand.eval, get_searchRow, ComparisonOp.holds,
      Graph.mem_nodes_iff.mp hn, hv, bind, Except.bind, pure, Except.pure]
  rw [hpasses]
  cases n.properties.get? key with
  | none => rfl
  | some w =>
    have hnull : w.isNull = true → w.equals v = false := by
      intro hw
      cases w with
      | null =>
        cases v with
        | null => cases hv
        | _ => rfl
      | _ => cases hw
    show Except.ok (!w.isNull && w.equals v) = .ok (w.equals v)
    cases hw : w.isNull with
    | false => rfl
    | true =>
      rw [hnull hw]
      rfl

theorem findRows_filter (g : Graph) (key : String) (hv : v.isNull = false) :
    findRows g Search.pattern [propertyEquals key v] [] =
      .ok ((g.equalling key v).map searchRow) := by
  have hrows : ∀ n ∈ g.nodes.toList,
      (do return if ← passesAll g (searchRow n) [propertyEquals key v] then [searchRow n]
        else []) = (.ok (if (n.properties.get? key).any (·.equals v) then [searchRow n] else []) :
          Evaluation (List Row)) := by
    intro n hn
    rw [passesAll, passes_propertyEquals hn hv]
    cases (n.properties.get? key).any (·.equals v) <;> rfl
  have hfind : findRows g Search.pattern [propertyEquals key v] [] =
      collect (fun r => do return if ← passesAll g r [propertyEquals key v] then [r] else [])
        (g.nodes.toList.map searchRow) := by
    rw [findRows, Search.matches_pattern]
    rfl
  rw [hfind, collect_of_map, collect_filter hrows]
  rfl

theorem storing_sublist (g : Graph) (key : String) (v : Value) :
    (g.storing key v).Sublist (g.equalling key v) := by
  apply List.monotone_filter_right
  intro n hn
  obtain ⟨w, hw, hsame⟩ := (Option.any_eq_true _ _).mp hn
  exact (Option.any_eq_true _ _).mpr ⟨w, hw, Value.equals_iff.mpr (.inl hsame)⟩

theorem storing_eq_iff : g.storing key v = g.equalling key v ↔
    ∀ n ∈ g.nodes, ∀ w, n.properties.get? key = some w → ¬w.Converts v := by
  constructor
  · intro heq n hn w hw hconverts
    have hequals : n ∈ g.equalling key v := by
      apply List.mem_filter.mpr
      refine ⟨Array.mem_toList_iff.mpr hn, ?_⟩
      rw [hw]
      exact Value.equals_iff.mpr (.inr hconverts)
    rw [← heq] at hequals
    have hsame := (List.mem_filter.mp hequals).2
    rw [hw] at hsame
    have hsame : w.same v = true := hsame
    rw [hconverts.not_same] at hsame
    cases hsame
  · intro hnone
    apply List.filter_congr
    intro n hn
    cases hw : n.properties.get? key with
    | none => rfl
    | some w =>
      have hother := hnone n (Array.mem_toList_iff.mp hn) w hw
      show w.same v = w.equals v
      rw [Bool.eq_iff_iff, Value.equals_iff]
      exact ⟨.inl, fun h => h.resolve_right hother⟩

def idCells (n : Node) : List Value := [.int (Int64.ofNat n.id)]

/-- Of all nodes, a pattern with a property finds those that store the value as it is. A condition
on the property finds them too, and it finds no others unless a node stores a number of the other
kind that is taken for equal. So for strings, truth values and lists there is no difference. -/
theorem pattern_finds_as_condition_iff (g : Graph) (hkey : isPlainIdentifier key = true)
    (hliteral : Value.readLiteral literal = .ok (v, [])) (hv : v.isNull = false) :
    ∃ inline filtered, memoryStore.execute (inlineText key literal) g = (.ok inline, g) ∧
      memoryStore.execute (filterText key literal) g = (.ok filtered, g) ∧
      inline.rows = (g.storing key v).map idCells ∧
      filtered.rows = (g.equalling key v).map idCells ∧ inline.rows.Sublist filtered.rows ∧
      (inline.rows = filtered.rows ↔
        ∀ n ∈ g.nodes, ∀ w, n.properties.get? key = some w → ¬w.Converts v) := by
  obtain ⟨column, hinline⟩ := parse_inlineText hkey hliteral
  obtain ⟨column', hfilter⟩ := parse_filterText hkey hliteral
  have hsublist := storing_sublist g key v
  refine ⟨_, _, Resolver.execute_find hinline (findRows_inline g key v)
    fun n _ => eval_searchRow_id g n, Resolver.execute_find hfilter
    (findRows_filter g key hv) fun n _ => eval_searchRow_id g n, rfl, rfl,
    hsublist.map idCells, ?_⟩
  rw [← storing_eq_iff]
  constructor
  · intro hrows
    have hlength := congrArg List.length hrows
    rw [List.length_map, List.length_map] at hlength
    exact hsublist.eq_of_length hlength
  · intro hnodes
    exact congrArg (List.map idCells) hnodes

/-- Numbers in lists are compared as they are, in a condition too. -/
theorem list_found_alike :
    ∃ g inline filtered, memoryStore.after .empty
        ["MERGE (a:Post \x7bk: [2.0, 'x']\x7d)", "MERGE (a:Post \x7bk: [2, 'x']\x7d)"] = g ∧
      memoryStore.execute (inlineText "k" "[2, 'x']") g = (.ok inline, g) ∧
      memoryStore.execute (filterText "k" "[2, 'x']") g = (.ok filtered, g) ∧
      inline.rows = [[.int 1]] ∧ filtered.rows = [[.int 1]] := by
  obtain ⟨v, hv⟩ : ∃ v, v = Value.list [.int 2, .string "x"] := ⟨_, rfl⟩
  have hliteral : Value.readLiteral "[2, 'x']" = .ok (v, []) := by
    have hwritable : v.Writable := by
      rw [hv]
      apply Value.Writable.list
      intro w hw
      simp only [List.mem_cons, List.not_mem_nil, or_false] at hw
      rcases hw with rfl | rfl
      · exact .int (by decide)
      · exact .string "x"
    have htext : v.literal = "[2, 'x']" := by
      rw [hv]
      decide +kernel
    rw [← htext]
    exact hwritable.readLiteral_eq
  obtain ⟨g, hg, hids⟩ : ∃ g, memoryStore.after .empty
      ["MERGE (a:Post \x7bk: [2.0, 'x']\x7d)", "MERGE (a:Post \x7bk: [2, 'x']\x7d)"] = g ∧
        (g.storing "k" (.list [.int 2, .string "x"])).map Node.id = [1] :=
    ⟨_, rfl, by decide +kernel⟩
  have hkey : isPlainIdentifier "k" = true := by decide
  have hnull : v.isNull = false := by
    rw [hv]
    rfl
  obtain ⟨inline, filtered, hinline, hfiltered, hrows, _, _, hsame⟩ :=
    pattern_finds_as_condition_iff g hkey hliteral hnull
  have hcells : inline.rows = [[.int 1]] := by
    have hmap : (g.storing "k" v).map idCells =
        ((g.storing "k" v).map Node.id).map fun id => [.int (Int64.ofNat id)] := by
      rw [List.map_map]
      rfl
    rw [hrows, hmap, hv, hids]
    rfl
  refine ⟨g, inline, filtered, hg, hinline, hfiltered, hcells, ?_⟩
  rw [← hcells]
  apply (hsame.mpr ?_).symm
  intro n _ w _ hconverts
  rw [hv] at hconverts
  cases hconverts

theorem number_found_by_condition_only :
    ∃ g inline filtered,
      memoryStore.after .empty ["MERGE (a:Post \x7bk: 2.0\x7d)"] = g ∧
      (memoryStore.execute (inlineText "k" "2") g).1 = .ok inline ∧
      (memoryStore.execute (filterText "k" "2") g).1 = .ok filtered ∧
      inline.rows.length = 0 ∧ filtered.rows.length = 1 ∧ inline.rows ≠ filtered.rows := by
  obtain ⟨g, hg, hinline, hfiltered⟩ :
      ∃ g, memoryStore.after .empty ["MERGE (a:Post \x7bk: 2.0\x7d)"] = g ∧
        (memoryStore.execute (inlineText "k" "2") g).1.toOption.map (·.rows.length) = some 0 ∧
        (memoryStore.execute (filterText "k" "2") g).1.toOption.map (·.rows.length) = some 1 :=
    ⟨_, rfl, by decide +kernel, by decide +kernel⟩
  obtain ⟨inline, hinline, hnone⟩ := exists_ok_of_toOption hinline
  obtain ⟨filtered, hfiltered, hone⟩ := exists_ok_of_toOption hfiltered
  refine ⟨g, inline, filtered, hg, hinline, hfiltered, hnone, hone, ?_⟩
  intro heq
  rw [heq, hone] at hnone
  cases hnone

end FieldGraph
