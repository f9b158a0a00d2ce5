import CampusQuery.Proofs.Query.Transformations
import Mathlib.Data.List.Permutation

/-!
# Reading `OPTIONS`

With the dataset bound and a proper transformation, or none, columns and order
are read exactly from what the grammar writes.
-/

namespace CampusQuery.Query

variable {registry : Registry} {bound : Bound} {state : Option Bound}
  {transform : Option Transform}

/-! ## Columns -/

theorem bareSource_eq_ok_iff {known : Transform} (hknown : known.Proper bound.kind)
    {name : String} {source : ColumnSource} :
    bareSource (some known) name = .ok source ↔
      (∃ rule ∈ known.apply, rule.name = name ∧ source = .apply name) ∨
        ∃ field ∈ known.group, field.bareName = name ∧ source = .field field := by
  unfold bareSource
  dsimp only
  split
  next hany =>
    obtain ⟨rule, hrule, hname⟩ := List.any_eq_true.1 hany
    obtain rfl : rule.name = name := by simpa using hname
    constructor
    · rintro ⟨⟩
      exact .inl ⟨rule, hrule, rfl, rfl⟩
    · intro hnamed
      rcases hnamed with ⟨_, -, -, rfl⟩ | ⟨field, hfield, hbare, -⟩
      -- rules are asked first, which does not matter: no group field shares their names
      · rfl
      · exact absurd (hbare ▸ List.mem_map_of_mem hfield) (hknown.apart rule hrule)
  next hany =>
    have hnone : ∀ rule ∈ known.apply, rule.name ≠ name := by simpa using hany
    split
    next found hfound =>
      have hmem := List.mem_of_find?_eq_some hfound
      have hbare : found.bareName = name := by simpa using List.find?_some hfound
      constructor
      · rintro ⟨⟩
        exact .inr ⟨found, hmem, hbare, rfl⟩
      · intro hnamed
        rcases hnamed with ⟨rule, hrule, hname, -⟩ | ⟨field, hfield, hname, rfl⟩
        · exact absurd hname (hnone rule hrule)
        · rw [Kind.eq_of_bareName_eq ((hknown.group_kind _ hmem).trans
            (hknown.group_kind _ hfield).symm) (hbare.trans hname.symm)]
    next hmissing =>
      simp only [reduceCtorEq, false_iff, not_or]
      refine ⟨?_, ?_⟩
      · intro hnamed
        obtain ⟨rule, hrule, hname, -⟩ := hnamed
        exact hnone rule hrule hname
      · intro hnamed
        obtain ⟨field, hfield, hname, -⟩ := hnamed
        simpa [hname] using List.find?_eq_none.1 hmissing field hfield

theorem coherent_columnSource (name : String) :
    Coherent registry (columnSource registry transform name) := by
  unfold columnSource
  split
  · exact (coherent_resolveField name).bind fun field => .pure _
  · exact .lift _

theorem columnSource_run_some_eq_ok_iff (hproper : ∀ known ∈ transform, known.Proper bound.kind)
    {name : String} {source : ColumnSource} :
    (columnSource registry transform name).run (some bound) = .ok (source, state) ↔
      source.NamedBy bound transform name ∧ state = some bound := by
  unfold columnSource
  split
  next hsep =>
    -- a separator makes the name a reference, and no part of a transformation has one
    simp only [Check.run_bind_eq_ok_iff, resolveField_run_some_eq_ok_iff, Check.run_pure_eq_ok_iff]
    constructor
    · intro hrun
      obtain ⟨field, _, ⟨hrefers, rfl⟩, rfl, rfl⟩ := hrun
      exact ⟨.reference hrefers, rfl⟩
    · intro hresult
      obtain ⟨hnamed, rfl⟩ := hresult
      cases hnamed with
      | reference hrefers => exact ⟨_, _, ⟨hrefers, rfl⟩, rfl, rfl⟩
      | applied hknown hrule =>
          exact absurd hsep (by simp [(hproper _ hknown).no_separator _ hrule])
      | @grouped known field hknown hfield =>
          exact absurd hsep (by simp [field.hasSeparator_bareName])
  next hsep =>
    rw [Check.run_lift_eq_ok_iff]
    refine and_congr_left fun _ => ?_
    constructor
    · intro hbare
      cases transform with
      | none => cases hbare
      | some known =>
          rcases (bareSource_eq_ok_iff (hproper known rfl)).1 hbare with
            ⟨rule, hrule, rfl, rfl⟩ | ⟨field, hfield, rfl, rfl⟩
          · exact .applied rfl hrule
          · exact .grouped rfl hfield
    · intro hnamed
      cases hnamed with
      | reference hrefers => exact absurd hrefers.hasSeparator_key hsep
      | applied hknown hrule =>
          subst hknown
          exact (bareSource_eq_ok_iff (hproper _ rfl)).2 (.inl ⟨_, hrule, rfl, rfl⟩)
      | grouped hknown hfield =>
          subst hknown
          exact (bareSource_eq_ok_iff (hproper _ rfl)).2 (.inr ⟨_, hfield, rfl, rfl⟩)

theorem coherent_columnsAfter (before : List Column) (items : List Json) :
    Coherent registry (columnsAfter registry transform before items) := by
  induction items generalizing before with
  | nil => exact .pure _
  | cons item rest ih =>
      refine (Coherent.lift _).bind fun name => ?_
      split
      · exact .throw _
      · refine (coherent_columnSource name).bind fun source => ?_
        split
        · exact .throw _
        · exact (ih _).bind fun columns => .pure _

/-- Columns are read exactly if neither a name nor a source comes twice. -/
theorem columnsAfter_run_some_eq_ok_iff (hproper : ∀ known ∈ transform, known.Proper bound.kind)
    {before columns : List Column} {items : List Json} :
    (columnsAfter registry transform before items).run (some bound) = .ok (columns, state) ↔
      (items = columns.map (fun column => .string column.name) ∧
        (∀ column ∈ columns, column.source.NamedBy bound transform column.name) ∧
        Fresh (before.map Column.name) (columns.map Column.name) ∧
        Fresh (before.map Column.source) (columns.map Column.source)) ∧
      state = some bound := by
  -- the columns before an item grow with every step, so they are left open
  induction items generalizing before columns state with
  | nil =>
      rw [columnsAfter, Check.run_pure_eq_ok_iff]
      refine and_congr_left fun _ => ?_
      constructor
      · intro hcolumns
        rw [hcolumns]
        exact ⟨rfl, by simp, fresh_nil _, fresh_nil _⟩
      · intro hwritten
        exact List.map_eq_nil_iff.1 hwritten.1.symm
  | cons item rest ih =>
      simp only [columnsAfter, Check.run_bind_eq_ok_iff, Check.run_lift_eq_ok_iff,
        Check.asKey_eq_ok_iff]
      constructor
      · intro hrun
        obtain ⟨name, _, ⟨rfl, rfl⟩, hrest⟩ := hrun
        split at hrest
        · exact (Check.run_throw_eq_ok_iff.1 hrest).elim
        next hname =>
          obtain ⟨source, _, hsource, hrest⟩ := Check.run_bind_eq_ok_iff.1 hrest
          obtain ⟨hnamed, rfl⟩ := (columnSource_run_some_eq_ok_iff hproper).1 hsource
          split at hrest
          · exact (Check.run_throw_eq_ok_iff.1 hrest).elim
          next hnew =>
            obtain ⟨others, _, hothers, hend⟩ := Check.run_bind_eq_ok_iff.1 hrest
            obtain ⟨⟨rfl, hall, hnames, hsources⟩, rfl⟩ := ih.1 hothers
            obtain ⟨rfl, rfl⟩ := Check.run_pure_eq_ok_iff.1 hend
            refine ⟨⟨rfl, List.forall_mem_cons.2 ⟨hnamed, hall⟩, ?_, ?_⟩, rfl⟩
            · exact fresh_cons_iff.2 ⟨by simpa using hname, hnames⟩
            · exact fresh_cons_iff.2 ⟨by simpa using hnew, hsources⟩
      · intro hwritten
        obtain ⟨⟨hitems, hall, hnames, hsources⟩, rfl⟩ := hwritten
        obtain ⟨⟨name, source⟩, others, rfl, rfl, rfl⟩ := List.map_eq_cons_iff.1 hitems.symm
        obtain ⟨hnamed, hall⟩ := List.forall_mem_cons.1 hall
        obtain ⟨hname, hnames⟩ := fresh_cons_iff.1 hnames
        obtain ⟨hnew, hsources⟩ := fresh_cons_iff.1 hsources
        refine ⟨name, _, ⟨rfl, rfl⟩, ?_⟩
        rw [if_neg (by simpa using hname), Check.run_bind_eq_ok_iff]
        refine ⟨source, _, (columnSource_run_some_eq_ok_iff hproper).2 ⟨hnamed, rfl⟩, ?_⟩
        rw [if_neg (by simpa using hnew), Check.run_bind_eq_ok_iff]
        exact ⟨others, _, ih.2 ⟨⟨rfl, hall, hnames, hsources⟩, rfl⟩,
          Check.run_pure_eq_ok_iff.2 ⟨rfl, rfl⟩⟩

/-! ## Order -/

theorem Direction.ofName?_eq_some_iff {text : String} {direction : Direction} :
    Direction.ofName? text = some direction ↔ direction.name = text :=
  find?_name_eq_some_iff (fun direction => by cases direction <;> simp)
    fun {a b} => by cases a <;> cases b <;> decide

theorem asDirection_eq_ok_iff {value : Json} {direction : Direction} :
    asDirection value = .ok direction ↔ value = .string direction.name := by
  cases value with
  | string text =>
      rw [Json.string.injEq, eq_comm (a := text), ← Direction.ofName?_eq_some_iff, asDirection]
      split
      next found hfound => simp [hfound]
      next hnone => simp [hnone]
  | _ => simp [asDirection]

theorem orderKey_eq_ok_iff {columns : List Column} {key found : String} :
    orderKey columns key = .ok found ↔ found = key ∧ key ∈ columns.map Column.name := by
  unfold orderKey
  split
  next hany =>
    have hmem : key ∈ columns.map Column.name := by simpa using hany
    simp [hmem, eq_comm]
  next hnone =>
    have hmissing : key ∉ columns.map Column.name := by simpa using hnone
    simp [hmissing]

theorem orderKeys_eq_ok_iff {columns : List Column} {items : List Json} {keys : List String} :
    orderKeys columns items = .ok keys ↔
      items = keys.map Json.string ∧ ∀ key ∈ keys, key ∈ columns.map Column.name := by
  unfold orderKeys
  rw [Answer.mapM_eq_ok_iff]
  simp only [Answer.bind_eq_ok_iff, Check.asKey_eq_ok_iff, orderKey_eq_ok_iff]
  constructor
  · intro hall
    induction hall with
    | nil => exact ⟨rfl, by simp⟩
    | cons hitem _ ih =>
        obtain ⟨key, rfl, rfl, hmem⟩ := hitem
        exact ⟨congrArg _ ih.1, List.forall_mem_cons.2 ⟨hmem, ih.2⟩⟩
  · intro hwritten
    obtain ⟨rfl, hall⟩ := hwritten
    rw [List.forall₂_map_left_iff, List.forall₂_same]
    exact fun key hkey => ⟨key, rfl, rfl, hall key hkey⟩

/-- Two entries hold both keys of an order exactly if they are these two, in some order. -/
theorem perm_of_lookup? {entries : List (String × Json)} {direction keys : Json}
    (hlength : entries.length = 2) (hdirection : Json.lookup? "dir" entries = some direction)
    (hkeys : Json.lookup? "keys" entries = some keys) :
    entries.Perm [("dir", direction), ("keys", keys)] := by
  obtain ⟨⟨first, a⟩, ⟨second, b⟩, rfl⟩ := List.length_eq_two.1 hlength
  -- each key is found, so the first entry has one of them and the second the other
  by_cases hfirst : first = "dir"
  · subst hfirst
    by_cases hsecond : second = "keys"
    · subst hsecond
      simp [Json.lookup?] at hdirection hkeys
      rw [hdirection, hkeys]
    · simp [Json.lookup?, hsecond] at hkeys
  · by_cases hsecond : second = "dir"
    · subst hsecond
      by_cases hfirst : first = "keys"
      · subst hfirst
        simp [Json.lookup?] at hdirection hkeys
        rw [hdirection, hkeys]
        exact .swap _ _ _
      · simp [Json.lookup?, hfirst] at hkeys
    · simp [Json.lookup?, hfirst, hsecond] at hdirection

theorem lookup?_of_perm {entries : List (String × Json)} {direction keys : Json}
    (hperm : entries.Perm [("dir", direction), ("keys", keys)]) :
    entries.length = 2 ∧ Json.lookup? "dir" entries = some direction ∧
      Json.lookup? "keys" entries = some keys := by
  rcases List.perm_pair.1 hperm with rfl | rfl
  · exact ⟨rfl, rfl, rfl⟩
  · exact ⟨rfl, rfl, rfl⟩

theorem orderOf_eq_ok_iff {columns : List Column} {value : Json} {order : OrderSpec} :
    orderOf columns value = .ok order ↔ order.WrittenBy (columns.map Column.name) value := by
  unfold orderOf
  split
  next key =>
    simp only [Answer.bind_eq_ok_iff, orderKey_eq_ok_iff]
    constructor
    · intro hrun
      obtain ⟨_, ⟨rfl, hmem⟩, hend⟩ := hrun
      cases hend
      exact .key hmem
    · intro hwritten
      cases hwritten with
      | key hmem => exact ⟨key, ⟨rfl, hmem⟩, rfl⟩
  next entries =>
    split
    next direction keys hlength hdirection hkeys =>
      simp only [Answer.bind_eq_ok_iff, asDirection_eq_ok_iff, Check.asItems_eq_ok_iff,
        orderKeys_eq_ok_iff]
      constructor
      · intro hrun
        obtain ⟨way, rfl, items, ⟨rfl, hfilled⟩, names, ⟨rfl, hall⟩, hend⟩ := hrun
        cases hend
        exact .directed (by simpa using hfilled) hall (perm_of_lookup? hlength hdirection hkeys)
      · intro hwritten
        cases hwritten with
        | @directed names way _ hfilled hall hperm =>
            obtain ⟨-, hway, hnames⟩ := lookup?_of_perm hperm
            rw [hdirection, Option.some.injEq] at hway
            rw [hkeys, Option.some.injEq] at hnames
            exact ⟨way, hway, _, ⟨hnames, by simpa using hfilled⟩, names, ⟨rfl, hall⟩, rfl⟩
    next hshape =>
      simp only [reduceCtorEq, false_iff]
      intro hwritten
      cases hwritten with
      | @directed names way _ hfilled hall hperm =>
          obtain ⟨hlength, hway, hnames⟩ := lookup?_of_perm hperm
          exact hshape _ _ hlength hway hnames
  next hstring hobject =>
    simp only [reduceCtorEq, false_iff]
    intro hwritten
    cases hwritten with
    | key => exact hstring _ rfl
    | directed => exact hobject _ rfl

/-! ## Options -/

theorem columnsWrittenBy_iff_run (hproper : ∀ known ∈ transform, known.Proper bound.kind)
    {columns : List Column} {json : Json} :
    ColumnsWrittenBy bound transform columns json ↔
      ∃ items, (json = .array items ∧ items ≠ []) ∧
        (columnsAfter registry transform [] items).run (some bound) =
          .ok (columns, some bound) := by
  simp only [columnsAfter_run_some_eq_ok_iff hproper, List.map_nil, fresh_nil_iff, and_true]
  constructor
  · intro hwritten
    obtain ⟨rfl, hfilled, hnamed, hnames, hsources⟩ := hwritten
    exact ⟨_, ⟨rfl, by simpa using hfilled⟩, rfl, hnamed, hnames, hsources⟩
  · intro hwritten
    obtain ⟨_, ⟨rfl, hfilled⟩, rfl, hnamed, hnames, hsources⟩ := hwritten
    exact ⟨rfl, by simpa using hfilled, hnamed, hnames, hsources⟩

theorem coherent_optionsOf (value : Json) :
    Coherent registry (optionsOf registry transform value) := by
  refine (Coherent.lift _).bind fun entries => (Coherent.lift _).bind fun _ => ?_
  refine (Coherent.lift _).bind fun items => (coherent_columnsAfter _ items).bind fun columns => ?_
  split
  · exact .pure _
  · exact (Coherent.lift _).bind fun order => .pure _

theorem optionsOf_run_some_eq_ok_iff (hproper : ∀ known ∈ transform, known.Proper bound.kind)
    {value : Json} {columns : List Column} {order : Option OrderSpec} :
    (optionsOf registry transform value).run (some bound) = .ok ((columns, order), state) ↔
      OptionsWrittenBy bound transform columns order value ∧ state = some bound := by
  simp only [optionsOf, Check.run_bind_eq_ok_iff, Check.run_lift_eq_ok_iff,
    Check.asObject_eq_ok_iff, Check.checkKeys_eq_ok_iff, Check.asItems_eq_ok_iff]
  constructor
  · intro hrun
    obtain ⟨entries, _, ⟨rfl, rfl⟩, _, _, ⟨hkeys, rfl⟩, items, _, ⟨hitems, rfl⟩, found, _, hfound,
      hrest⟩ := hrun
    obtain rfl := (coherent_columnsAfter [] items).keeps hfound
    have hcolumns := (columnsWrittenBy_iff_run hproper).2 ⟨items, hitems, hfound⟩
    rw [List.mem_pair] at hkeys
    rcases hkeys with hkeys | hkeys
    · obtain ⟨json, _, rfl, hnil⟩ := Check.keys_eq_cons_iff.1 hkeys
      obtain rfl := List.map_eq_nil_iff.1 hnil
      cases hrest
      exact ⟨.unordered hcolumns, rfl⟩
    · obtain ⟨json, _, rfl, hbehind⟩ := Check.keys_eq_cons_iff.1 hkeys
      obtain ⟨written, _, rfl, hnil⟩ := Check.keys_eq_cons_iff.1 hbehind
      obtain rfl := List.map_eq_nil_iff.1 hnil
      obtain ⟨spec, _, hspec, hend⟩ := Check.run_bind_eq_ok_iff.1 hrest
      obtain ⟨horder, rfl⟩ := Check.run_lift_eq_ok_iff.1 hspec
      cases hend
      exact ⟨.ordered hcolumns (orderOf_eq_ok_iff.1 horder), rfl⟩
  · intro hwritten
    obtain ⟨hwritten, rfl⟩ := hwritten
    cases hwritten with
    | unordered hcolumns =>
        obtain ⟨items, hitems, hfound⟩ := (columnsWrittenBy_iff_run hproper).1 hcolumns
        exact ⟨_, _, ⟨rfl, rfl⟩, (), _, ⟨List.mem_cons_self, rfl⟩, items, _, ⟨hitems, rfl⟩,
          columns, _, hfound, rfl⟩
    | @ordered spec _ written hcolumns hspec =>
        obtain ⟨items, hitems, hfound⟩ := (columnsWrittenBy_iff_run hproper).1 hcolumns
        refine ⟨_, _, ⟨rfl, rfl⟩, (), _, ⟨List.mem_pair.2 (.inr rfl), rfl⟩, items, _,
          ⟨hitems, rfl⟩, columns, _, hfound, ?_⟩
        refine Check.run_bind_eq_ok_iff.2 ⟨spec, _, ?_, Check.run_pure_eq_ok_iff.2 ⟨rfl, rfl⟩⟩
        exact Check.run_lift_eq_ok_iff.2 ⟨orderOf_eq_ok_iff.2 hspec, rfl⟩

/-- Without a transformation a column can only be a reference, which binds the dataset. -/
theorem columnSource_binds {name : String} {source : ColumnSource} {before : Option Bound}
    (hrun : (columnSource registry none name).run before = .ok (source, state)) :
    ∃ found, state = some found := by
  unfold columnSource at hrun
  split at hrun
  next =>
    obtain ⟨field, _, hfield, hend⟩ := Check.run_bind_eq_ok_iff.1 hrun
    obtain ⟨found, rfl, -⟩ := resolveField_run_eq_ok_iff.1 hfield
    exact ⟨found, (Check.run_pure_eq_ok_iff.1 hend).2⟩
  next => exact nomatch (Check.run_lift_eq_ok_iff.1 hrun).1

theorem columnsAfter_binds {items : List Json} {columns : List Column} {before : Option Bound}
    (hfilled : items ≠ [])
    (hrun : (columnsAfter registry none [] items).run before = .ok (columns, state)) :
    ∃ found, state = some found := by
  cases items with
  | nil => exact absurd rfl hfilled
  | cons item rest =>
      obtain ⟨name, _, -, hrest⟩ := Check.run_bind_eq_ok_iff.1 hrun
      rw [if_neg (by simp)] at hrest
      obtain ⟨source, _, hsource, hrest⟩ := Check.run_bind_eq_ok_iff.1 hrest
      rw [if_neg (by simp)] at hrest
      obtain ⟨others, _, hothers, hend⟩ := Check.run_bind_eq_ok_iff.1 hrest
      obtain ⟨found, rfl⟩ := columnSource_binds hsource
      obtain ⟨-, rfl⟩ := Check.run_pure_eq_ok_iff.1 hend
      exact ⟨found, (coherent_columnsAfter _ rest).keeps hothers⟩

theorem optionsOf_binds {value : Json} {parts : List Column × Option OrderSpec}
    {before : Option Bound}
    (hrun : (optionsOf registry none value).run before = .ok (parts, state)) :
    ∃ found, state = some found := by
  simp only [optionsOf, Check.run_bind_eq_ok_iff, Check.run_lift_eq_ok_iff,
    Check.asItems_eq_ok_iff] at hrun
  obtain ⟨_, _, -, _, _, -, items, _, ⟨⟨-, hfilled⟩, -⟩, columns, _, hcolumns, hrest⟩ := hrun
  obtain ⟨found, rfl⟩ := columnsAfter_binds hfilled hcolumns
  refine ⟨found, ?_⟩
  split at hrest
  next => exact (Check.run_pure_eq_ok_iff.1 hrest).2
  next =>
    obtain ⟨order, _, horder, hend⟩ := Check.run_bind_eq_ok_iff.1 hrest
    obtain ⟨-, rfl⟩ := Check.run_lift_eq_ok_iff.1 horder
    exact (Check.run_pure_eq_ok_iff.1 hend).2

end CampusQuery.Query
