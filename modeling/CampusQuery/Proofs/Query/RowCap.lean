import CampusQuery.Proofs.Query.CellTypes
import Mathlib.Data.Finset.Card

/-!
# The cap on rows

How many rows a query has is settled by its matching records alone: one for each
of them, or one for each of their distinct tuples of group values. A cap below
that number is exceeded, and any other does not change the answer.
-/

namespace CampusQuery

/-- The value itself, but one zero for both. -/
def Value.canonical : Value → Value
  | .text t => .text t
  | .number n => .number n.normalizeZero

namespace Query

variable {registry : Registry} {bound : Bound} {document : Json} {found : Plan}

/-! ## Counting classes -/

/-- There are as many classes as distinct keys. -/
theorem length_classesBy {α κ : Type} [DecidableEq κ] (key : α → κ) (items : List α) :
    (classesBy key items).length = (items.map key).toFinset.card := by
  induction items using classInduction key with
  | nil => rfl
  | cons item rest ih =>
      -- the first item's key is not among those of the other classes
      have hothers : ((item :: rest).map key).toFinset =
          insert (key item) ((rest.filter fun other => key other ≠ key item).map key).toFinset := by
        ext k
        simp only [List.map_cons, List.toFinset_cons, Finset.mem_insert, List.mem_toFinset,
          List.mem_map, List.mem_filter, decide_eq_true_eq]
        constructor
        · rintro (rfl | ⟨other, hother, rfl⟩)
          · exact .inl rfl
          · by_cases hkey : key other = key item
            · exact .inl hkey
            · exact .inr ⟨other, ⟨hother, hkey⟩, rfl⟩
        · rintro (rfl | ⟨other, ⟨hother, -⟩, rfl⟩)
          · exact .inl rfl
          · exact .inr ⟨other, hother, rfl⟩
      have hfresh : key item ∉
          ((rest.filter fun other => key other ≠ key item).map key).toFinset := by
        simp
      rw [classesBy_cons, List.length_cons, ih, hothers, Finset.card_insert_of_notMem hfresh]

/-- The values of a record in the group fields. -/
def groupTuple (group : List Field) (record : Record) : List (Option Value) :=
  group.map fun field => (record.get? field).map Value.canonical

theorem KeyPart.ofValue_eq_iff_canonical {a b : Value} :
    ofValue a = ofValue b ↔ a.canonical = b.canonical := by
  cases a <;> cases b <;> simp [ofValue, Value.canonical]

theorem keyOf_eq_iff_groupTuple {group : List Field} {a b : Record}
    (ha : ∀ field ∈ group, field.kind = a.kind) (hb : ∀ field ∈ group, field.kind = b.kind) :
    keyOf group a = keyOf group b ↔ groupTuple group a = groupTuple group b := by
  rw [keyOf_eq_iff ha hb, groupTuple, groupTuple, List.map_inj_left]
  refine forall₂_congr fun field hfield => ?_
  obtain ⟨x, hx⟩ := exists_readField (ha field hfield)
  obtain ⟨y, hy⟩ := exists_readField (hb field hfield)
  rw [readField_eq_ok_iff] at hx hy
  rw [hx, hy]
  simp only [Option.map_some, Option.some.injEq]
  exact KeyPart.ofValue_eq_iff_canonical

/-! ## Counting rows -/

/-- How many rows records make: one for each, or with group fields one for each distinct tuple of
their values. -/
def rowCount (group : List Field) (records : List Record) : Nat :=
  if group = [] then records.length else (records.map (groupTuple group)).toFinset.card

/-- A proper plan makes that many rows with its columns, unless they exceed the cap. -/
theorem Plan.Proper.exists_counted_rows {plan : Plan} (hproper : plan.Proper)
    {records : List Record} (hkind : ∀ record ∈ records, record.kind = plan.kind) :
    ∃ rows, rows.length = rowCount plan.transform.group records ∧
      (∀ row ∈ rows, row.columns = plan.columnNames) ∧
      ∀ maxRows, plan.rows maxRows records =
        if maxRows < rowCount plan.transform.group records then
          .error (.tooLarge (rowCount plan.transform.group records) maxRows)
        else .ok rows := by
  rcases hproper.transform with hplain | hgrouped
  · have hcount : rowCount plan.transform.group records = records.length := by
      rw [hplain]
      rfl
    obtain ⟨rows, hrows⟩ := Answer.exists_mapM fun record hrecord =>
      hproper.exists_recordRow hplain (hkind record hrecord)
    have hall := Answer.mapM_eq_ok_iff.1 hrows
    rw [hcount]
    refine ⟨rows, hall.length_eq.symm, ?_, fun maxRows => ?_⟩
    · intro row hrow
      obtain ⟨record, -, hmade⟩ := exists_of_mem_forall₂ hall.flip hrow
      exact (cells_of_recordRow hproper.distinct_names hmade).1
    · rw [Plan.rows_of_plain hplain, hrows]
      rfl
  · have hfields : ∀ record ∈ records, ∀ field ∈ plan.transform.group, field.kind = record.kind :=
      fun record hrecord field hfield =>
        (hgrouped.group_kind field hfield).trans (hkind record hrecord).symm
    have hcount : (classesBy (keyOf plan.transform.group) records).length =
        rowCount plan.transform.group records := by
      have hsame := classesBy_congr records fun a ha b hb =>
        keyOf_eq_iff_groupTuple (hfields a ha) (hfields b hb)
      rw [hsame, length_classesBy, rowCount, if_neg hgrouped.group_ne_nil]
    obtain ⟨rows, hall, hrows⟩ := hproper.exists_rows hgrouped hkind
    rw [hcount] at hrows
    refine ⟨rows, hall.length_eq.symm.trans hcount, ?_, hrows⟩
    intro row hrow
    obtain ⟨members, -, hmade⟩ := exists_of_mem_forall₂ hall.flip hrow
    exact (cells_of_groupRow hproper.distinct_names hmade).1

theorem Plan.length_arrange (plan : Plan) (rows : List Row) :
    (plan.arrange rows).length = rows.length := by
  unfold Plan.arrange
  split
  · rfl
  · exact List.length_mergeSort rows

/-- The cap decides between one refusal and one answer. -/
theorem Plan.Proper.exists_capped_run {plan : Plan} (hproper : plan.Proper) {store : Store}
    (hstore : store.WellFormed) {dataset : Dataset}
    (hdataset : store.get? plan.datasetId = some dataset) (hkind : dataset.kind = plan.kind) :
    ∃ output : Output,
      output.rows.length = rowCount plan.transform.group (plan.matching dataset.records) ∧
      (∀ row ∈ output.rows, row.columns = plan.columnNames) ∧
      ∀ cap, plan.run cap store =
        if cap < output.rows.length then .error (.tooLarge output.rows.length cap)
        else .ok output := by
  have hwell := hstore.well_formed dataset (Store.mem_of_get? hdataset).1
  have hall : ∀ record ∈ dataset.records, record.kind = plan.kind :=
    fun record hrecord => (hwell.of_kind record hrecord).trans hkind
  have hrecords : store.recordsOf? plan.datasetId = some dataset.records :=
    Option.map_eq_some_iff.2 ⟨dataset, hdataset, rfl⟩
  obtain ⟨rows, hlength, hcolumns, hrows⟩ := hproper.exists_counted_rows
    fun record hrecord => hall record (Plan.mem_of_mem_matching hrecord)
  refine ⟨⟨plan.arrange rows, dataset.records.length, (plan.matching dataset.records).length⟩,
    (plan.length_arrange rows).trans hlength, ?_, fun cap => ?_⟩
  · intro row hrow
    exact hcolumns row (Plan.mem_arrange.1 hrow)
  · rw [plan.run_of_checked cap hrecords (Plan.checkKind_eq_ok hall), hrows cap,
      plan.length_arrange, hlength]
    split <;> rfl

theorem Plan.exceeds_iff {plan : Plan} {store : Store} {n : Nat} {output : Output}
    (hrun : ∀ cap, plan.run cap store =
      if cap < n then .error (.tooLarge n cap) else .ok output) (cap : Nat) :
    plan.run cap store = .error (.tooLarge n cap) ↔ cap < n := by
  rw [hrun]
  split
  next hlt => exact iff_of_true rfl hlt
  next hnot => exact iff_of_false nofun hnot

/-! ## What documents ask for -/

/-- The document's `COLUMNS` are these names. -/
def ListsColumns (document : Json) (names : List String) : Prop :=
  ∃ entries options, document = .object entries ∧ ("OPTIONS", .object options) ∈ entries ∧
    ("COLUMNS", .array (names.map .string)) ∈ options

theorem OptionsWrittenBy.exists_entries {transform : Option Transform} {columns : List Column}
    {order : Option OrderSpec} {json : Json}
    (hwritten : OptionsWrittenBy bound transform columns order json) :
    ∃ options, json = .object options ∧
      ("COLUMNS", .array ((columns.map Column.name).map .string)) ∈ options := by
  cases hwritten with
  | unordered hcolumns =>
      rw [hcolumns.spelled, List.map_map]
      exact ⟨_, rfl, List.mem_cons_self⟩
  | ordered hcolumns =>
      rw [hcolumns.spelled, List.map_map]
      exact ⟨_, rfl, List.mem_cons_self⟩

theorem listsColumns_of_plan (hplan : plan registry document = .ok found) :
    ListsColumns document found.columnNames := by
  obtain ⟨_, -, hwritten⟩ := Plan.ofDocument_eq_ok_iff.1 (plan_eq_ok_iff.1 hplan)
  cases hwritten with
  | plain _ hoptions =>
      obtain ⟨options, rfl, hcolumns⟩ := hoptions.exists_entries
      exact ⟨_, options, rfl, by simp, hcolumns⟩
  | transformed _ _ hoptions _ =>
      obtain ⟨options, rfl, hcolumns⟩ := hoptions.exists_entries
      exact ⟨_, options, rfl, by simp, hcolumns⟩

/-- A document without a transformation has a plan without group fields. -/
theorem transforms_iff_of_plan (hplan : plan registry document = .ok found) :
    Transforms document ↔ found.transform.group ≠ [] := by
  constructor
  · intro htransforms
    exact (grouped_of_plan hplan htransforms).transform.group_ne_nil
  · obtain ⟨_, -, hwritten⟩ := Plan.ofDocument_eq_ok_iff.1 (plan_eq_ok_iff.1 hplan)
    cases hwritten with
    | plain => exact fun hgroup => absurd rfl hgroup
    | transformed => exact fun _ => ⟨_, rfl, by simp⟩

/-! ## Runs -/

/-- On a dataset of its kind a query has as many rows as it matches records or, with a
transformation, distinct tuples of group values. A smaller cap is exceeded by just that number;
under all others the answer is the same, with the document's columns. Other queries with that
filter and these group fields exceed the same caps. -/
theorem cap_is_exact {store : Store} (hstore : store.Reachable)
    (hplan : plan registry document = .ok found) {dataset : Dataset}
    (hdataset : store.get? found.datasetId = some dataset) (hkind : dataset.kind = found.kind) :
    ∃ n,
      (¬ Transforms document → n = (found.matching dataset.records).length) ∧
      (Transforms document → n = ((found.matching dataset.records).map
        (groupTuple found.transform.group)).toFinset.card) ∧
      (∀ cap, found.run cap store = .error (.tooLarge n cap) ↔ cap < n) ∧
      (∀ cap, n ≤ cap → ∃ output, found.run cap store = .ok output ∧ output.rows.length = n ∧
        ∀ row ∈ output.rows, ListsColumns document row.columns) ∧
      (∀ cap larger output, cap ≤ larger → found.run cap store = .ok output →
        found.run larger store = .ok output) ∧
      ∀ otherRegistry otherDocument other, plan otherRegistry otherDocument = .ok other →
        other.datasetId = found.datasetId → other.kind = found.kind →
        other.filter = found.filter → other.transform.group = found.transform.group →
        ∀ cap, other.run cap store = .error (.tooLarge n cap) ↔
          found.run cap store = .error (.tooLarge n cap) := by
  obtain ⟨output, hlength, hcolumns, hrun⟩ :=
    (proper_of_plan hplan).exists_capped_run hstore.wellFormed hdataset hkind
  refine ⟨output.rows.length, ?_, ?_, Plan.exceeds_iff hrun, ?_, ?_, ?_⟩
  · intro hplain
    rw [transforms_iff_of_plan hplan, not_not] at hplain
    rw [hlength, rowCount, if_pos hplain]
  · intro htransforms
    rw [transforms_iff_of_plan hplan] at htransforms
    rw [hlength, rowCount, if_neg htransforms]
  · intro cap hle
    refine ⟨output, by rw [hrun, if_neg (Nat.not_lt.2 hle)], rfl, fun row hrow => ?_⟩
    rw [hcolumns row hrow]
    exact listsColumns_of_plan hplan
  · intro cap larger answer hle hanswer
    rw [hrun] at hanswer ⊢
    split at hanswer
    · exact nomatch hanswer
    next hfits => rw [if_neg (by omega), ← hanswer]
  · intro otherRegistry otherDocument other hother hid hsameKind hfilter hgroup
    obtain ⟨answer, hsame, -, hotherRun⟩ := (proper_of_plan hother).exists_capped_run
      hstore.wellFormed (hid ▸ hdataset) (hkind.trans hsameKind.symm)
    have hmatching : other.matching dataset.records = found.matching dataset.records := by
      rw [Plan.matching, Plan.matching, hfilter]
    rw [hgroup, hmatching, ← hlength] at hsame
    rw [hsame] at hotherRun
    intro cap
    rw [Plan.exceeds_iff hotherRun, Plan.exceeds_iff hrun]

/-- Three sections with two averages exceed a cap of one, and no greater one. -/
theorem two_averages_capped :
    ∃ dataset, (storeOf [.ofNat 90, 0, .signedZero true]).Reachable ∧
      plan (storeOf [.ofNat 90, 0, .signedZero true]).registry byAverage = .ok byAveragePlan ∧
      (storeOf [.ofNat 90, 0, .signedZero true]).get? byAveragePlan.datasetId = some dataset ∧
      dataset.kind = byAveragePlan.kind ∧ dataset.records.length = 3 ∧
      byAveragePlan.run 1 (storeOf [.ofNat 90, 0, .signedZero true]) = .error (.tooLarge 2 1) ∧
      ∃ output, byAveragePlan.run 2 (storeOf [.ofNat 90, 0, .signedZero true]) = .ok output ∧
        output.rows.length = 2 ∧
        byAveragePlan.run 5 (storeOf [.ofNat 90, 0, .signedZero true]) = .ok output := by
  have hfinite : ∀ average ∈ [.ofNat 90, 0, .signedZero true],
      Numeric.Binary64.isFinite average = true := by
    decide +kernel
  have hstore : (storeOf [.ofNat 90, 0, .signedZero true]).Reachable :=
    reachable_storeOf (by simp) hfinite
  have hplan := plan_byAverage [.ofNat 90, 0, .signedZero true]
  have htransforms : Transforms byAverage := ⟨_, rfl, by simp⟩
  have hdataset : (storeOf [.ofNat 90, 0, .signedZero true]).get? byAveragePlan.datasetId =
      some ⟨"courses", .sections, [.ofNat 90, 0, .signedZero true].map sectionOf⟩ := rfl
  obtain ⟨n, -, hcount, hexceeds, hanswer, hsame, -⟩ := cap_is_exact hstore hplan hdataset rfl
  obtain rfl : n = 2 := (hcount htransforms).trans (by decide +kernel)
  obtain ⟨output, hrun, hlength, -⟩ := hanswer 2 (Nat.le_refl 2)
  exact ⟨_, hstore, hplan, hdataset, rfl, rfl, (hexceeds 1).2 (by decide), output, hrun, hlength,
    hsame 2 5 output (by decide) hrun⟩

end Query

end CampusQuery
