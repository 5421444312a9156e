import FieldGraph.Proofs.Document.Preorder

/-!
# Names in documents

The keys of properties, the labels and the types of edges have to be plain names. They are looked at
object by object in preorder, and compiling fails at the first that is not plain.
-/
namespace FieldGraph

namespace Json

def keyNames (fields : List (String × Json)) : List (String × NameRole) :=
  (scalarFields fields).map fun property => (property.1, .propertyKey)

/-- The names that the statements for the object at a place take, in the order in which they are
looked at. An object without scalar fields has no statements, whatever introduces it. -/
inductive Needs (rootLabel : String) (document : Json) :
    Place → List (String × NameRole) → Prop
  | bare {place : Place} {fields : List (String × Json)}
      (hobject : document.at? place = some (.object fields)) (hnone : scalarFields fields = []) :
      Needs rootLabel document place []
  | root {place : Place} {fields : List (String × Json)}
      (hobject : document.at? place = some (.object fields)) (hsome : scalarFields fields ≠ [])
      (hroot : document.Arrays [] place) :
      Needs rootLabel document place (keyNames fields ++ [(rootLabel, .label)])
  | held {place owner : Place} {key : String} {fields : List (String × Json)}
      (hobject : document.at? place = some (.object fields)) (hsome : scalarFields fields ≠ [])
      (hheld : document.HeldBy place owner key) :
      Needs rootLabel document place
        (keyNames fields ++ [(toLabel key, .label), (toEdgeType key, .relationshipType)])

/-- The field that introduced a place; the entries of the document itself have none. -/
inductive IntroducedBy (document : Json) (place : Place) : Option String → Prop
  | root (hroot : document.Arrays [] place) : IntroducedBy document place none
  | field {owner : Place} {key : String} (hheld : document.HeldBy place owner key) :
      IntroducedBy document place (some key)

variable {rootLabel : String} {document : Json} {place : Place}

theorem Arrays.not_object {start passed rest : Place} {i : Nat}
    (h : document.Arrays start (passed ++ i :: rest)) (fields : List (String × Json)) :
    document.at? (start ++ passed) ≠ some (.object fields) := by
  obtain ⟨items, hitems⟩ := h passed (List.prefix_append _ _) (by simp)
  rw [hitems]
  nofun

theorem Arrays.not_heldBy (h : document.Arrays [] place) {owner : Place} {key : String} :
    ¬ document.HeldBy place owner key := by
  rintro ⟨fields, i, value, rest, howner, _, rfl, _⟩
  exact h.not_object fields howner

/-- An owner does not own what is in a field of an object within its own fields. -/
theorem HeldBy.not_within {owner inner : Place} {i : Nat} {key key' : String}
    (h : document.HeldBy place owner key) :
    ¬ document.HeldBy place (owner ++ i :: inner) key' := by
  rintro ⟨fields', j, value', rest', hinner, _, rfl, _⟩
  obtain ⟨fields, k, value, rest, _, _, heq, harrays⟩ := h
  rw [List.append_assoc, List.append_cancel_left_eq, List.cons_append] at heq
  obtain ⟨rfl, rfl⟩ := List.cons.inj heq
  rw [List.append_cons] at hinner
  exact harrays.not_object fields' hinner

theorem HeldBy.prefix_place {owner : Place} {key : String} (h : document.HeldBy place owner key) :
    owner <+: place := by
  obtain ⟨_, i, _, rest, _, _, rfl, _⟩ := h
  exact List.prefix_append owner (i :: rest)

theorem HeldBy.owner_unique {owner owner' : Place} {key key' : String}
    (h : document.HeldBy place owner key) (h' : document.HeldBy place owner' key') :
    owner = owner' := by
  rcases List.prefix_or_prefix_of_prefix h.prefix_place h'.prefix_place with
    ⟨between, rfl⟩ | ⟨between, rfl⟩
  · cases between with
    | nil => exact (List.append_nil owner).symm
    | cons => exact absurd h' h.not_within
  · cases between with
    | nil => exact List.append_nil owner'
    | cons => exact absurd h h'.not_within

theorem HeldBy.key_unique {owner owner' : Place} {key key' : String}
    (h : document.HeldBy place owner key) (h' : document.HeldBy place owner' key') :
    key = key' := by
  obtain rfl := h.owner_unique h'
  obtain ⟨fields, i, value, rest, howner, hfield, rfl, _⟩ := h
  obtain ⟨fields', j, value', rest', howner', hfield', hplace, _⟩ := h'
  rw [howner] at howner'
  rw [List.append_cancel_left_eq] at hplace
  cases howner'
  cases hplace
  rw [hfield] at hfield'
  cases hfield'
  rfl

theorem object_unique {fields others : List (String × Json)}
    (h : document.at? place = some (.object fields))
    (h' : document.at? place = some (.object others)) : fields = others :=
  object.inj (Option.some.inj (h.symm.trans h'))

theorem Needs.unique {names names' : List (String × NameRole)}
    (h : document.Needs rootLabel place names) (h' : document.Needs rootLabel place names') :
    names = names' := by
  cases h with
  | bare hobject hnone =>
    cases h' with
    | bare => rfl
    | root hobject' hsome | held hobject' hsome =>
      exact absurd (object_unique hobject hobject' ▸ hnone) hsome
  | root hobject hsome hroot =>
    cases h' with
    | bare hobject' hnone => exact absurd (object_unique hobject' hobject ▸ hnone) hsome
    | root hobject' => rw [object_unique hobject hobject']
    | held _ _ hheld => exact absurd hheld hroot.not_heldBy
  | held hobject hsome hheld =>
    cases h' with
    | bare hobject' hnone => exact absurd (object_unique hobject' hobject ▸ hnone) hsome
    | root _ _ hroot => exact absurd hheld hroot.not_heldBy
    | held hobject' _ hheld' =>
      rw [object_unique hobject hobject', hheld.key_unique hheld']

theorem IntroducedBy.item {relation : Option String} (h : document.IntroducedBy place relation)
    {items : List Json} (hitems : document.at? place = some (.array items)) (i : Nat) :
    document.IntroducedBy (place ++ [i]) relation := by
  cases h with
  | root hroot => exact .root (hroot.concat hitems i)
  | field hheld => exact .field (hheld.item hitems i)

theorem introducedBy_field {fields : List (String × Json)} {i : Nat} {key : String} {value : Json}
    (hobject : document.at? place = some (.object fields))
    (hfield : fields[i]? = some (key, value)) :
    document.IntroducedBy (place ++ [i]) (some key) :=
  .field ⟨fields, i, value, [], hobject, hfield, rfl, .nil _ _⟩

end Json

open Json

/-- Work fails at the first of the names that is not plain, and succeeds if there is none. -/
def Vets {α : Type} (names : List (String × NameRole)) (work : Except DocumentFault α) : Prop :=
  match names.find? fun name => !isPlainIdentifier name.1 with
  | none => ∃ a, work = .ok a
  | some name => work = .error (.badName name.1 name.2)

namespace Vets

variable {α β : Type} {names others : List (String × NameRole)} {work : Except DocumentFault α}

theorem ok (a : α) : Vets [] (.ok a) := ⟨a, rfl⟩

theorem checked (name : String) (role : NameRole) :
    Vets [(name, role)] (checkedName name role) := by
  unfold Vets checkedName
  by_cases hplain : isPlainIdentifier name = true
  · simp [hplain]
  · simp [hplain]

theorem bind {f : α → Except DocumentFault β} (hwork : Vets names work)
    (hf : ∀ a, work = .ok a → Vets others (f a)) : Vets (names ++ others) (work >>= f) := by
  unfold Vets at hwork ⊢
  rw [List.find?_append]
  cases hbad : names.find? fun name => !isPlainIdentifier name.1 with
  | none =>
    rw [hbad] at hwork
    obtain ⟨a, rfl⟩ := hwork
    exact hf a rfl
  | some name =>
    rw [hbad] at hwork
    rw [show work = _ from hwork]
    rfl

theorem map {f : α → β} (hwork : Vets names work) :
    Vets names (work >>= fun a => .ok (f a)) := by
  rw [← List.append_nil names]
  exact hwork.bind fun a _ => ok (f a)

end Vets

theorem propertiesOf_vets (fields : List (String × Json)) :
    Vets (keyNames fields) (propertiesOf fields) := by
  induction fields with
  | nil => exact .ok []
  | cons field rest ih =>
    obtain ⟨key, json⟩ := field
    cases json with
    | null | array | object => exact ih
    | bool | integer | float | string =>
      exact (Vets.checked key .propertyKey).bind fun _ _ => ih.map

variable {rootLabel : String} {document : Json}

theorem object_vets {place : Place} {relation : Option String} {fields : List (String × Json)}
    (hobject : document.at? place = some (.object fields))
    (hintro : document.IntroducedBy place relation) :
    ∃ names, document.Needs rootLabel place names ∧ ∀ parent id b,
      Vets names (propertiesOf fields >>= fun properties =>
        pushObject rootLabel (relation.map fun _ => parent) relation id properties b) := by
  by_cases hnone : scalarFields fields = []
  · refine ⟨[], .bare hobject hnone, fun parent id b => ?_⟩
    have hkeys : keyNames fields = [] := by rw [keyNames, hnone, List.map_nil]
    rw [← hkeys, ← List.append_nil (keyNames fields)]
    apply (propertiesOf_vets fields).bind
    intro properties hproperties
    rw [propertiesOf_eq hproperties, hnone]
    exact .ok b
  · have hsome : ¬ (scalarFields fields).isEmpty = true := by simpa using hnone
    cases hintro with
    | root hroot =>
      refine ⟨_, .root hobject hnone hroot, fun parent id b => ?_⟩
      apply (propertiesOf_vets fields).bind
      intro properties hproperties
      rw [propertiesOf_eq hproperties, pushObject, if_neg hsome]
      exact (Vets.checked rootLabel .label).map
    | @field owner key hheld =>
      refine ⟨_, .held hobject hnone hheld, fun parent id b => ?_⟩
      apply (propertiesOf_vets fields).bind
      intro properties hproperties
      rw [propertiesOf_eq hproperties, pushObject, if_neg hsome]
      exact (Vets.checked (toLabel key) .label).bind fun _ _ =>
        (Vets.checked (toEdgeType key) .relationshipType).map

mutual

theorem compileInto_vets (json : Json) {place : Place} {relation : Option String}
    (hat : document.at? place = some json) (hintro : document.IntroducedBy place relation) :
    ∃ blocks, List.Forall₂ (document.Needs rootLabel) (json.places.map (place ++ ·)) blocks ∧
      ∀ parent b, Vets blocks.flatten
        (compileInto rootLabel (relation.map fun _ => parent) relation json b) := by
  match json with
  | .object fields =>
    obtain ⟨names, hneeds, hnames⟩ := @object_vets rootLabel _ _ _ _ hat hintro
    have hfields : ∀ j key value, fields[j]? = some (key, value) →
        document.at? (place ++ [0 + j]) = some value ∧
          document.IntroducedBy (place ++ [0 + j]) (some key) := by
      intro j key value hfield
      rw [Nat.zero_add]
      refine ⟨?_, introducedBy_field hat hfield⟩
      rw [at?_concat hat, parts, List.getElem?_map, hfield]
      rfl
    obtain ⟨blocks, hblocks, hvets⟩ := compileFields_vets fields hfields
    refine ⟨names :: blocks, .cons (by simpa using hneeds) hblocks, fun parent b => ?_⟩
    have hobject := (hnames parent b.nextId b.allocate).bind fun c _ => hvets b.nextId c
    rwa [bind_assoc] at hobject
  | .array items =>
    apply compileItems_vets items (i := 0)
    intro j item hitem
    rw [Nat.zero_add]
    exact ⟨(at?_concat hat j).trans hitem, hintro.item hat j⟩
  | .null | .bool _ | .integer _ _ | .float _ | .string _ =>
    exact ⟨[], .nil, fun _ b => .ok b⟩

theorem compileItems_vets (items : List Json) {place : Place} {i : Nat} {relation : Option String}
    (hitems : ∀ j item, items[j]? = some item →
      document.at? (place ++ [i + j]) = some item ∧
        document.IntroducedBy (place ++ [i + j]) relation) :
    ∃ blocks,
      List.Forall₂ (document.Needs rootLabel) ((itemPlaces i items).map (place ++ ·)) blocks ∧
      ∀ parent b, Vets blocks.flatten
        (compileItems rootLabel (relation.map fun _ => parent) relation items b) := by
  match items with
  | [] => exact ⟨[], .nil, fun _ b => .ok b⟩
  | item :: rest =>
    obtain ⟨hat, hintro⟩ := hitems 0 item rfl
    have hothers : ∀ j other, rest[j]? = some other →
        document.at? (place ++ [i + 1 + j]) = some other ∧
          document.IntroducedBy (place ++ [i + 1 + j]) relation := by
      intro j other hother
      rw [Nat.add_assoc, Nat.add_comm 1 j]
      exact hitems (j + 1) other hother
    obtain ⟨blocks, hblocks, hvets⟩ := compileInto_vets item hat hintro
    obtain ⟨others, hmore, hall⟩ := compileItems_vets rest hothers
    refine ⟨blocks ++ others, ?_, fun parent b => ?_⟩
    · rw [itemPlaces, List.map_append, map_places_below]
      exact List.rel_append hblocks hmore
    · rw [List.flatten_append]
      exact (hvets parent b).bind fun c _ => hall parent c

theorem compileFields_vets (fields : List (String × Json)) {place : Place} {i : Nat}
    (hfields : ∀ j key value, fields[j]? = some (key, value) →
      document.at? (place ++ [i + j]) = some value ∧
        document.IntroducedBy (place ++ [i + j]) (some key)) :
    ∃ blocks,
      List.Forall₂ (document.Needs rootLabel) ((fieldPlaces i fields).map (place ++ ·)) blocks ∧
      ∀ id b, Vets blocks.flatten (compileFields rootLabel id fields b) := by
  match fields with
  | [] => exact ⟨[], .nil, fun _ b => .ok b⟩
  | (key, value) :: rest =>
    obtain ⟨hat, hintro⟩ := hfields 0 key value rfl
    have hothers : ∀ j other held, rest[j]? = some (other, held) →
        document.at? (place ++ [i + 1 + j]) = some held ∧
          document.IntroducedBy (place ++ [i + 1 + j]) (some other) := by
      intro j other held hother
      rw [Nat.add_assoc, Nat.add_comm 1 j]
      exact hfields (j + 1) other held hother
    obtain ⟨blocks, hblocks, hvets⟩ := compileInto_vets value hat hintro
    obtain ⟨others, hmore, hall⟩ := compileFields_vets rest hothers
    refine ⟨blocks ++ others, ?_, fun id b => ?_⟩
    · rw [fieldPlaces, List.map_append, map_places_below]
      exact List.rel_append hblocks hmore
    · rw [List.flatten_append]
      exact (hvets id b).bind fun c _ => hall id c

end

/-- The first name that is not plain is in a place that all places with such a name come after. -/
theorem exists_first_place {places : List Place} {blocks : List (List (String × NameRole))}
    (h : List.Forall₂ (document.Needs rootLabel) places blocks)
    (hascending : places.Pairwise (· < ·)) {bad : String × NameRole}
    (hbad : blocks.flatten.find? (fun name => !isPlainIdentifier name.1) = some bad) :
    ∃ place before after, document.Needs rootLabel place (before ++ bad :: after) ∧
      isPlainIdentifier bad.1 = false ∧
      (∀ name ∈ before, isPlainIdentifier name.1 = true) ∧
      ∀ earlier ∈ places, earlier < place → ∀ names, document.Needs rootLabel earlier names →
        ∀ name ∈ names, isPlainIdentifier name.1 = true := by
  induction h with
  | nil => cases hbad
  | @cons place block places blocks hneeds hrest ih =>
    obtain ⟨hfirst, hothers⟩ := List.pairwise_cons.mp hascending
    rw [List.flatten_cons, List.find?_append] at hbad
    cases hblock : block.find? fun name => !isPlainIdentifier name.1 with
    | some name =>
      rw [hblock, Option.some_or] at hbad
      cases hbad
      obtain ⟨hname, before, after, rfl, hbefore⟩ := List.find?_eq_some_iff_append.mp hblock
      refine ⟨place, before, after, hneeds, by simpa using hname, by simpa using hbefore, ?_⟩
      intro earlier hmem hlt
      rcases List.mem_cons.mp hmem with rfl | hmem
      · exact absurd hlt (List.lt_irrefl _)
      · exact absurd hlt (List.lt_asymm (hfirst earlier hmem))
    | none =>
      rw [hblock, Option.none_or] at hbad
      obtain ⟨found, before, after, hfound, hname, hbefore, hall⟩ := ih hothers hbad
      refine ⟨found, before, after, hfound, hname, hbefore, ?_⟩
      intro earlier hmem hlt names hnames
      rcases List.mem_cons.mp hmem with rfl | hmem
      · rw [hnames.unique hneeds]
        simpa using List.find?_eq_none.mp hblock
      · exact hall earlier hmem hlt names hnames

theorem Json.Needs.mem_places {place : Place} {names : List (String × NameRole)}
    (h : document.Needs rootLabel place names) : place ∈ document.places := by
  apply Json.mem_places.mpr
  cases h with
  | bare hobject | root hobject | held hobject => exact ⟨_, hobject⟩

theorem exists_block {places : List Place} {blocks : List (List (String × NameRole))}
    (h : List.Forall₂ (document.Needs rootLabel) places blocks) {place : Place}
    (hplace : place ∈ places) : ∃ block ∈ blocks, document.Needs rootLabel place block := by
  induction h with
  | nil => cases hplace
  | cons hneeds _ ih =>
    rcases List.mem_cons.mp hplace with rfl | hplace
    · exact ⟨_, List.mem_cons_self, hneeds⟩
    · obtain ⟨block, hblock, hsome⟩ := ih hplace
      exact ⟨block, List.mem_cons_of_mem _ hblock, hsome⟩

theorem vets_of_structural (rootLabel : String) (hroot : document.isStructural = true) :
    ∃ blocks, List.Forall₂ (document.Needs rootLabel) document.places blocks ∧
      Vets blocks.flatten (compile rootLabel document) := by
  obtain ⟨blocks, hblocks, hvets⟩ := @compileInto_vets rootLabel document document [] none
    (at?_nil document) (.root (.nil document []))
  refine ⟨blocks, by simpa using hblocks, ?_⟩
  rw [compile_of_structural hroot]
  exact hvets 0 .empty

/-- A document is compiled exactly if all names that its objects need are plain. If not, the fault
is the first name that is not plain: the places before have plain names only, and so has what comes
before it in its own place. -/
theorem compiles_iff_names_plain (hroot : document.isStructural = true) :
    (∀ place fields, document.at? place = some (.object fields) →
      ∃! names, document.Needs rootLabel place names) ∧
    ((∃ b, compile rootLabel document = .ok b) ↔
      ∀ place names, document.Needs rootLabel place names →
        ∀ name ∈ names, isPlainIdentifier name.1 = true) ∧
    ∀ fault, compile rootLabel document = .error fault →
      ∃ place before name role after, fault = .badName name role ∧
        document.Needs rootLabel place (before ++ (name, role) :: after) ∧
        isPlainIdentifier name = false ∧
        (∀ other ∈ before, isPlainIdentifier other.1 = true) ∧
        ∀ earlier < place, ∀ names, document.Needs rootLabel earlier names →
          ∀ other ∈ names, isPlainIdentifier other.1 = true := by
  obtain ⟨blocks, hblocks, hvets⟩ := vets_of_structural rootLabel hroot
  have hneeds : ∀ place ∈ document.places, ∃ block ∈ blocks, document.Needs rootLabel place block :=
    fun place hplace => exists_block hblocks hplace
  refine ⟨?_, ?_⟩
  · intro place fields hobject
    obtain ⟨block, _, hblock⟩ := hneeds place (Json.mem_places.mpr ⟨fields, hobject⟩)
    exact ⟨block, hblock, fun names hnames => hnames.unique hblock⟩
  unfold Vets at hvets
  cases hbad : blocks.flatten.find? fun name => !isPlainIdentifier name.1 with
  | none =>
    rw [hbad] at hvets
    obtain ⟨b, hb⟩ := hvets
    refine ⟨⟨fun _ place names hnames name hname => ?_, fun _ => ⟨b, hb⟩⟩, ?_⟩
    · obtain ⟨block, hblock, hsame⟩ := hneeds place hnames.mem_places
      rw [hnames.unique hsame] at hname
      simpa using List.find?_eq_none.mp hbad name (List.mem_flatten_of_mem hblock hname)
    · intro fault hfault
      rw [hb] at hfault
      cases hfault
  | some name =>
    rw [hbad] at hvets
    obtain ⟨place, before, after, hplace, hname, hbefore, hearlier⟩ :=
      exists_first_place hblocks document.places_ascending hbad
    refine ⟨⟨?_, fun hall => ?_⟩, ?_⟩
    · rintro ⟨b, hb⟩
      rw [hb] at hvets
      cases hvets
    · have := hall place _ hplace name (by simp)
      rw [hname] at this
      cases this
    · intro fault hfault
      rw [hfault] at hvets
      cases hvets
      exact ⟨place, before, name.1, name.2, after, rfl, hplace, hname, hbefore,
        fun earlier hlt names hnames => hearlier earlier hnames.mem_places hlt names hnames⟩

/-- A post whose last key is not plain, like that of a user before it. The other keys are not plain
either, but they name no property. -/
def crookedDocument : Json :=
  .object [("deleted at", .null), ("tag list", .array [.string "x"]),
    ("user", .object [("first name", .string "Ann")]), ("top score", .bool true)]

theorem crooked_at_top_score :
    crookedDocument.isStructural = true ∧
      compile defaultLabel crookedDocument = .error (.badName "top score" .propertyKey) ∧
      ∃ place names, crookedDocument.Needs defaultLabel place names ∧
        ∃ name ∈ names, isPlainIdentifier name.1 = false := by
  refine ⟨rfl, rfl, ?_⟩
  obtain ⟨_, _, hfault⟩ := @compiles_iff_names_plain defaultLabel crookedDocument rfl
  obtain ⟨place, before, name, role, after, _, hneeds, hname, _⟩ := hfault _ rfl
  exact ⟨place, _, hneeds, (name, role), by simp, hname⟩

end FieldGraph
