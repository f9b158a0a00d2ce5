import CampusQuery.Proofs.Query.Groups

/-!
# Plans that answer alike

Neither the order nor the repetition of group fields, nor the order of apply
rules or columns decides on an answer, and column names are only carried along.
A plan that differs in nothing else makes the same rows in the same order.
-/

namespace CampusQuery.Query

open Numeric

/-! ## Sorting related lists -/

/-- Lists that are related item by item stay so when both are sorted alike. -/
theorem forall₂_mergeSort {α β : Type} {relation : α → β → Prop} {le : α → α → Bool}
    {le' : β → β → Bool} {left : List α} {right : List β}
    (hall : List.Forall₂ relation left right)
    (hle : ∀ a b c d, relation a b → relation c d → le a c = le' b d) :
    List.Forall₂ relation (left.mergeSort le) (right.mergeSort le') := by
  -- the pairs are sorted once, and both sorted lists are read off them
  have hpairs : ∃ pairs : List (α × β), left = pairs.map Prod.fst ∧ right = pairs.map Prod.snd ∧
      ∀ pair ∈ pairs, relation pair.1 pair.2 := by
    induction hall with
    | nil => exact ⟨[], rfl, rfl, by simp⟩
    | @cons a b _ _ hhead _ ih =>
        obtain ⟨pairs, rfl, rfl, hpairs⟩ := ih
        exact ⟨(a, b) :: pairs, rfl, rfl, List.forall_mem_cons.2 ⟨hhead, hpairs⟩⟩
  obtain ⟨pairs, rfl, rfl, hpairs⟩ := hpairs
  have hfirst : (pairs.mergeSort fun p q => le p.1 q.1).map Prod.fst =
      (pairs.map Prod.fst).mergeSort le :=
    List.map_mergeSort fun _ _ _ _ => rfl
  have hsecond : (pairs.mergeSort fun p q => le p.1 q.1).map Prod.snd =
      (pairs.map Prod.snd).mergeSort le' :=
    List.map_mergeSort fun p hp q hq => hle _ _ _ _ (hpairs p hp) (hpairs q hq)
  rw [← hfirst, ← hsecond, List.forall₂_map_left_iff, List.forall₂_map_right_iff,
    List.forall₂_same]
  exact fun pair hpair => hpairs pair (List.mem_mergeSort.1 hpair)

/-! ## Variants -/

/-- A plan that differs in how it is written down: group fields and apply rules come in another
order, group fields also more or less often, and renamed columns in another order. -/
structure Plan.Variant (rename : String → String) (plan other : Plan) : Prop where
  datasetId : other.datasetId = plan.datasetId
  kind : other.kind = plan.kind
  filter : other.filter = plan.filter
  group : ∀ field, field ∈ other.transform.group ↔ field ∈ plan.transform.group
  apply : other.transform.apply.Perm plan.transform.apply
  columns : other.columns.Perm
    (plan.columns.map fun column => ⟨rename column.name, column.source⟩)
  order : other.order = plan.order.map fun order => ⟨order.keys.map rename, order.direction⟩

/-- Rows of two plans with the same cell for each column source. -/
structure Plan.SameCells (plan other : Plan) (row row' : Row) : Prop where
  columns : row'.columns = other.columnNames
  cell : ∀ column ∈ plan.columns, ∀ column' ∈ other.columns, column'.source = column.source →
    ∃ value, row.get? column.name = some value ∧ row'.get? column'.name = some value

/-- Two plans are refused alike, or answer with as many rows, which have the same cells one after
the other. -/
inductive Plan.SameAnswer (plan other : Plan) :
    Except QueryError Output → Except QueryError Output → Prop where
  | refused (error : QueryError) : SameAnswer plan other (.error error) (.error error)
  | answered {output again : Output} : again.scanned = output.scanned →
      again.matched = output.matched →
      List.Forall₂ (plan.SameCells other) output.rows again.rows →
      SameAnswer plan other (.ok output) (.ok again)

/-- A plan of the same dataset and column sources that has the same answers. -/
structure Plan.AnswersAs (other plan : Plan) : Prop where
  datasetId : other.datasetId = plan.datasetId
  sources : (other.columns.map Column.source).Perm (plan.columns.map Column.source)
  answer : ∀ maxRows store, store.Reachable →
    plan.SameAnswer other (plan.run maxRows store) (other.run maxRows store)

theorem Plan.SameCells.trans {first second third : Plan}
    (hsources : ∀ source, source ∈ first.columns.map Column.source →
      source ∈ second.columns.map Column.source) {a b c : Row}
    (hfirst : first.SameCells second a b) (hsecond : second.SameCells third b c) :
    first.SameCells third a c := by
  refine ⟨hsecond.columns, fun column hcolumn column' hcolumn' hsource => ?_⟩
  obtain ⟨middle, hmiddle, hsame⟩ :=
    List.mem_map.1 (hsources _ (List.mem_map_of_mem hcolumn))
  obtain ⟨value, ha, hb⟩ := hfirst.cell column hcolumn middle hmiddle hsame
  obtain ⟨value', hb', hc⟩ :=
    hsecond.cell middle hmiddle column' hcolumn' (hsource.trans hsame.symm)
  cases hb.symm.trans hb'
  exact ⟨value, ha, hc⟩

theorem Plan.AnswersAs.trans {first second third : Plan} (hsecond : second.AnswersAs first)
    (hthird : third.AnswersAs second) : third.AnswersAs first := by
  refine ⟨hthird.datasetId.trans hsecond.datasetId, hthird.sources.trans hsecond.sources, ?_⟩
  intro maxRows store hstore
  have hfirst := hsecond.answer maxRows store hstore
  have hlast := hthird.answer maxRows store hstore
  generalize first.run maxRows store = a at hfirst
  generalize second.run maxRows store = b at hfirst hlast
  generalize third.run maxRows store = c at hlast
  cases hfirst with
  | refused error =>
      cases hlast with
      | refused => exact .refused error
  | answered hscanned hmatched hrows =>
      cases hlast with
      | answered hscanned' hmatched' hrows' =>
          have hcells : ∀ a b c, first.SameCells second a b → second.SameCells third b c →
              first.SameCells third a c :=
            fun _ _ _ => Plan.SameCells.trans fun _ => hsecond.sources.mem_iff.2
          exact .answered (hscanned'.trans hscanned) (hmatched'.trans hmatched)
            (forall₂_trans hcells hrows hrows')

/-! ## What a source makes of a group -/

theorem Applies.unique {rule : ApplyRule} {members : List Record} {m n : Binary64}
    (hm : Applies rule members m) (hn : Applies rule members n) : m = n := by
  obtain ⟨values, hvalues, hm⟩ := hm
  obtain ⟨others, hothers, hn⟩ := hn
  cases hvalues.symm.trans hothers
  cases hm.symm.trans hn
  rfl

/-- What a source makes of a group does not depend on the order of the rules. -/
theorem ColumnSource.Makes.unique {rules others : List ApplyRule} (hrules : others.Perm rules)
    (hnodup : (rules.map ApplyRule.name).Nodup) {members : List Record} {source : ColumnSource}
    {value other : Value} (hvalue : source.Makes rules members value)
    (hother : source.Makes others members other) : other = value := by
  cases hvalue with
  | field hfirst hget =>
      cases hother with
      | field hfirst' hget' =>
          cases hfirst.symm.trans hfirst'
          cases hget.symm.trans hget'
          rfl
  | @apply rule n hrule happlies =>
      generalize hname : rule.name = name at hother
      cases hother with
      | @apply rule' m hrule' happlies' =>
          obtain rfl : rule = rule' :=
            List.inj_on_of_nodup_map hnodup hrule (hrules.mem_iff.1 hrule') hname
          rw [happlies.unique happlies']

namespace Plan.Variant

variable {rename : String → String} {plan other : Plan}

theorem sameCells (hvariant : plan.Variant rename other) (hplan : plan.Grouped)
    (hother : other.Grouped) {members : List Record} {row row' : Row}
    (hrow : groupRow plan members = .ok row) (hrow' : groupRow other members = .ok row') :
    plan.SameCells other row row' := by
  obtain ⟨-, hcells⟩ := cells_of_groupRow hplan.proper.distinct_names hrow
  obtain ⟨hcolumns, hcells'⟩ := cells_of_groupRow hother.proper.distinct_names hrow'
  refine ⟨hcolumns, fun column hcolumn column' hcolumn' hsource => ?_⟩
  obtain ⟨value, hvalue, hmakes⟩ := hcells column hcolumn
  obtain ⟨value', hvalue', hmakes'⟩ := hcells' column' hcolumn'
  rw [hsource] at hmakes'
  rw [hmakes.unique hvariant.apply hplan.transform.distinct_names hmakes'] at hvalue'
  exact ⟨value, hvalue, hvalue'⟩

/-- Group fields that are the same up to order and repetition make the same groups. -/
theorem classesBy_eq (hvariant : plan.Variant rename other) {records : List Record}
    (hfields : ∀ record ∈ records, ∀ field ∈ plan.transform.group, field.kind = record.kind) :
    classesBy (keyOf other.transform.group) records =
      classesBy (keyOf plan.transform.group) records := by
  have hfields' : ∀ record ∈ records, ∀ field ∈ other.transform.group,
      field.kind = record.kind := fun record hrecord field hfield =>
    hfields record hrecord field ((hvariant.group field).1 hfield)
  refine classesBy_congr records fun a ha b hb => ?_
  rw [keyOf_eq_iff (hfields' a ha) (hfields' b hb), keyOf_eq_iff (hfields a ha) (hfields b hb)]
  simp only [hvariant.group]

/-! ## Order -/

theorem mem_columns (hvariant : plan.Variant rename other) {column : Column}
    (hcolumn : column ∈ plan.columns) :
    ⟨rename column.name, column.source⟩ ∈ other.columns :=
  hvariant.columns.mem_iff.2 (List.mem_map.2 ⟨column, hcolumn, rfl⟩)

theorem get?_rename (hvariant : plan.Variant rename other) {row row' : Row}
    (hcells : plan.SameCells other row row') {name : String} (hname : name ∈ plan.columnNames) :
    row'.get? (rename name) = row.get? name := by
  obtain ⟨column, hcolumn, rfl⟩ := List.mem_map.1 hname
  obtain ⟨value, hvalue, hvalue'⟩ :=
    hcells.cell column hcolumn _ (hvariant.mem_columns hcolumn) rfl
  exact hvalue'.trans hvalue.symm

theorem compareByKeys_eq (hvariant : plan.Variant rename other) {a a' b b' : Row}
    (ha : plan.SameCells other a a') (hb : plan.SameCells other b b') {keys : List String}
    (hkeys : ∀ key ∈ keys, key ∈ plan.columnNames) :
    Row.compareByKeys a b keys = Row.compareByKeys a' b' (keys.map rename) := by
  induction keys with
  | nil => rfl
  | cons key rest ih =>
      obtain ⟨hkey, hrest⟩ := List.forall_mem_cons.1 hkeys
      rw [List.map_cons, Row.compareByKeys, Row.compareByKeys, ih hrest, Row.compareBy,
        Row.compareBy, hvariant.get?_rename ha hkey, hvariant.get?_rename hb hkey]

theorem arrange (hvariant : plan.Variant rename other)
    (horder : ∀ order ∈ plan.order, ∀ key ∈ order.keys, key ∈ plan.columnNames)
    {rows rows' : List Row} (hrows : List.Forall₂ (plan.SameCells other) rows rows') :
    List.Forall₂ (plan.SameCells other) (plan.arrange rows) (other.arrange rows') := by
  unfold Plan.arrange
  rw [hvariant.order]
  cases hsome : plan.order with
  | none => exact hrows
  | some order =>
      refine forall₂_mergeSort hrows fun a a' b b' ha hb => ?_
      rw [Row.mayPrecede, Row.mayPrecede,
        hvariant.compareByKeys_eq ha hb (horder order hsome)]

/-! ## Answers -/

theorem rows (hvariant : plan.Variant rename other) (hplan : plan.Grouped)
    (hother : other.Grouped) {records : List Record}
    (hkind : ∀ record ∈ records, record.kind = plan.kind) :
    ∃ count rows rows', List.Forall₂ (plan.SameCells other) rows rows' ∧ ∀ maxRows,
      plan.rows maxRows records =
        (if maxRows < count then .error (.tooLarge count maxRows) else .ok rows) ∧
      other.rows maxRows records =
        if maxRows < count then .error (.tooLarge count maxRows) else .ok rows' := by
  have hclasses := hvariant.classesBy_eq fun record hrecord field hfield =>
    (hplan.transform.group_kind field hfield).trans (hkind record hrecord).symm
  obtain ⟨rows, hall, hrows⟩ := hplan.proper.exists_rows hplan.transform hkind
  obtain ⟨rows', hall', hrows'⟩ := hother.proper.exists_rows hother.transform
    fun record hrecord => (hkind record hrecord).trans hvariant.kind.symm
  rw [hclasses] at hall' hrows'
  have hcells : ∀ row members row', groupRow plan members = .ok row →
      groupRow other members = .ok row' → plan.SameCells other row row' :=
    fun _ _ _ => hvariant.sameCells hplan hother
  exact ⟨_, rows, rows', forall₂_trans hcells hall.flip hall',
    fun maxRows => ⟨hrows maxRows, hrows' maxRows⟩⟩

theorem matching_eq (hvariant : plan.Variant rename other) (records : List Record) :
    other.matching records = plan.matching records := by
  unfold Plan.matching
  rw [hvariant.filter]

theorem answersAs (hvariant : plan.Variant rename other) (hplan : plan.Grouped)
    (hother : other.Grouped)
    (horder : ∀ order ∈ plan.order, ∀ key ∈ order.keys, key ∈ plan.columnNames) :
    other.AnswersAs plan := by
  refine ⟨hvariant.datasetId, ?_, fun maxRows store hstore => ?_⟩
  · simpa [Function.comp_def] using hvariant.columns.map Column.source
  -- no dataset, one of the wrong kind, one of the kind: only the last gives rows
  cases hget : store.get? plan.datasetId with
  | none =>
      rw [plan.run_of_missing maxRows hget,
        other.run_of_missing maxRows (hvariant.datasetId ▸ hget), hvariant.datasetId]
      exact .refused _
  | some dataset =>
      obtain ⟨hmem, -⟩ := Store.mem_of_get? hget
      have hwell := hstore.wellFormed.well_formed dataset hmem
      have hget' : store.get? other.datasetId = some dataset := hvariant.datasetId ▸ hget
      by_cases hkind : dataset.kind = plan.kind
      · have hrecords : ∀ record ∈ dataset.records, record.kind = plan.kind :=
          fun record hrecord => (hwell.of_kind record hrecord).trans hkind
        have hrecords' : ∀ record ∈ dataset.records, record.kind = other.kind :=
          fun record hrecord => (hrecords record hrecord).trans hvariant.kind.symm
        obtain ⟨count, rows, rows', hcells, hrows⟩ := hvariant.rows hplan hother
          fun record hrecord => hrecords record (Plan.mem_of_mem_matching hrecord)
        rw [plan.run_of_checked maxRows (congrArg (Option.map Dataset.records) hget)
            (Plan.checkKind_eq_ok hrecords),
          other.run_of_checked maxRows (congrArg (Option.map Dataset.records) hget')
            (Plan.checkKind_eq_ok hrecords'),
          hvariant.matching_eq, (hrows maxRows).1, (hrows maxRows).2]
        split
        · exact .refused _
        · exact .answered rfl rfl (hvariant.arrange horder hcells)
      · have hfilled := hstore.wellFormed.inhabited dataset hmem
        rw [plan.run_of_present maxRows hget, other.run_of_present maxRows hget',
          plan.runOn_of_wrongKind maxRows hwell hfilled hkind,
          other.runOn_of_wrongKind maxRows hwell hfilled (hvariant.kind ▸ hkind),
          hvariant.datasetId, hvariant.kind]
        exact .refused _

end Plan.Variant

end CampusQuery.Query
