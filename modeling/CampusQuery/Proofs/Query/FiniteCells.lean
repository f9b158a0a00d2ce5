import CampusQuery.Proofs.Json.Entries
import CampusQuery.Proofs.Numeric.Numerals
import CampusQuery.Proofs.Query.Running
import CampusQuery.Proofs.Query.Totals

/-!
# When cells are finite

Records hold finite numbers, so only a computed number can be another, and it is
one exactly if a running total of its group overflows. No other cell is ever
written as `null`.
-/

namespace CampusQuery

/-- A text or a finite number. -/
def Value.Finite : Value → Prop
  | .text _ => True
  | .number n => n.isFinite = true

/-- A value that a response or a report writes as `null`. -/
def Value.WrittenAsNull (value : Value) : Prop :=
  (Record.encodeValue value).compact = "null" ∨
    ∃ depth, (Record.encodeValue value).indented depth = "null"

theorem Record.indented_encodeValue (depth : Nat) (value : Value) :
    (encodeValue value).indented depth = (encodeValue value).compact := by
  cases value <;> rfl

theorem Record.compact_encodeValue_eq_null_iff (value : Value) :
    (encodeValue value).compact = "null" ↔ ¬ value.Finite := by
  cases value with
  | text text =>
      refine iff_of_false ?_ (not_not_intro trivial)
      -- a text starts with its quote
      intro hnull
      have hlist := congrArg String.toList hnull
      rw [encodeValue, Json.compact, Json.quote, String.toList_ofList] at hlist
      exact absurd (List.cons.inj hlist).1 (by decide)
  | number n =>
      rw [encodeValue, Json.ofBinary64, Json.compact,
        Numeric.Binary64.numberText_float_eq_null_iff]
      exact Bool.eq_false_iff

theorem Value.not_writtenAsNull_iff {value : Value} : ¬ value.WrittenAsNull ↔ value.Finite := by
  unfold WrittenAsNull
  simp [Record.indented_encodeValue, Record.compact_encodeValue_eq_null_iff]

theorem Record.finite_of_get? {record : Record} (hfinite : record.hasFiniteNumbers = true)
    {field : Field} {value : Value} (hvalue : record.get? field = some value) : value.Finite := by
  cases value with
  | text text => trivial
  | number n => exact Record.hasFiniteNumbers_iff.1 hfinite field n hvalue

namespace Query

open Numeric

/-! ## Numbers of rules -/

theorem NumbersOf.unique {field : Field} {members : List Record} {numbers others : List Binary64}
    (hnumbers : NumbersOf field members numbers) (hothers : NumbersOf field members others) :
    numbers = others := by
  induction hnumbers generalizing others with
  | nil => exact (List.forall₂_nil_left_iff.1 hothers).symm
  | cons hn _ ih =>
      obtain ⟨other, rest, hother, hrest, rfl⟩ := List.forall₂_cons_left_iff.1 hothers
      rw [hn] at hother
      cases hother
      rw [ih hrest]

theorem NumbersOf.finite {field : Field} {members : List Record} {numbers : List Binary64}
    (hnumbers : NumbersOf field members numbers)
    (hfinite : ∀ member ∈ members, member.hasFiniteNumbers = true) :
    ∀ n ∈ numbers, n.isFinite = true := by
  intro n hn
  obtain ⟨member, hmember, hget⟩ := exists_of_mem_forall₂ (List.Forall₂.flip hnumbers) hn
  exact Record.finite_of_get? (hfinite member hmember) hget

/-- A sum or average over a group overflows: the running total of its numbers does so at one of
them. -/
def ApplyRule.Overflows (rule : ApplyRule) (members : List Record) : Prop :=
  (rule.token = .sum ∨ rule.token = .avg) ∧
    ∃ before n after, NumbersOf rule.field members (before ++ n :: after) ∧
      (Total.ofNumbers before).Overflows n

theorem ApplyRule.overflows_iff {rule : ApplyRule} {members : List Record}
    {numbers : List Binary64} (hnumbers : NumbersOf rule.field members numbers)
    (hfinite : ∀ n ∈ numbers, n.isFinite = true) :
    rule.Overflows members ↔
      (rule.token = .sum ∨ rule.token = .avg) ∧ (Total.ofNumbers numbers).isFinite = false := by
  have hfold := @Total.isFinite_foldl_iff numbers (.exact 0) rfl hfinite
  unfold ApplyRule.Overflows
  rw [← Bool.not_eq_true, Total.ofNumbers, hfold]
  refine and_congr_right fun _ => ?_
  constructor
  · intro hoverflows hnever
    obtain ⟨before, n, after, hsplit, hat⟩ := hoverflows
    exact hnever before n after (hnumbers.unique hsplit) hat
  · intro hsome
    by_contra hnone
    refine hsome fun before n after hsplit hat => ?_
    exact hnone ⟨before, n, after, hsplit ▸ hnumbers, hat⟩

/-- A rule that does not count answers over the numbers of its field. -/
theorem Applies.exists_numbers {rule : ApplyRule} {members : List Record} {answer : Binary64}
    (happlies : Applies rule members answer) (haccepts : rule.token.accepts rule.field = true)
    (hcount : rule.token ≠ .count) (hfilled : members ≠ [])
    (hkind : ∀ member ∈ members, rule.field.kind = member.kind) :
    ∃ numbers, NumbersOf rule.field members numbers ∧ numbers ≠ [] ∧
      aggregate rule.token (numbers.map Value.number) = .ok answer := by
  obtain ⟨values, hvalues, hanswer⟩ := happlies
  have htype := (ApplyToken.accepts_eq_true_iff.1 haccepts).resolve_left hcount
  obtain ⟨numbers, hnumbers⟩ := exists_numbersOf hkind htype
  rw [hnumbers.mapM_readField] at hvalues
  cases hvalues
  refine ⟨numbers, hnumbers, ?_, hanswer⟩
  rintro rfl
  exact hfilled (List.forall₂_nil_right_iff.1 hnumbers)

/-- A rule that fits its field makes a finite number of a group, unless it overflows. -/
theorem Applies.isFinite_iff {rule : ApplyRule} {members : List Record} {answer : Binary64}
    (happlies : Applies rule members answer) (haccepts : rule.token.accepts rule.field = true)
    (hfilled : members ≠ []) (hcounted : members.length < 2 ^ 64)
    (hkind : ∀ member ∈ members, rule.field.kind = member.kind)
    (hfinite : ∀ member ∈ members, member.hasFiniteNumbers = true) :
    answer.isFinite = true ↔ ¬ rule.Overflows members := by
  -- counting takes any values and is apart from the tokens that need numbers
  by_cases hcount : rule.token = .count
  · obtain ⟨values, hvalues, hanswer⟩ := happlies
    have hlength : values.length < 2 ^ 64 :=
      (Answer.mapM_eq_ok_iff.1 hvalues).length_eq ▸ hcounted
    rw [hcount] at hanswer
    refine iff_of_true (isFinite_aggregate_count hlength hanswer) ?_
    intro hoverflows
    rcases hoverflows.1 with hsum | havg
    · exact nomatch hcount.symm.trans hsum
    · exact nomatch hcount.symm.trans havg
  · obtain ⟨numbers, hnumbers, hsome, hanswer⟩ :=
      happlies.exists_numbers haccepts hcount hfilled hkind
    have hall := hnumbers.finite hfinite
    rw [ApplyRule.overflows_iff hnumbers hall]
    cases htoken : rule.token with
    | max =>
        rw [htoken] at hanswer
        simp [isFinite_of_aggregate_max hsome hall hanswer]
    | min =>
        rw [htoken] at hanswer
        simp [isFinite_of_aggregate_min hsome hall hanswer]
    | avg =>
        rw [htoken] at hanswer
        simp [isFinite_aggregate_avg hsome hanswer]
    | sum =>
        rw [htoken] at hanswer
        simp [isFinite_aggregate_sum hanswer]
    | count => exact absurd htoken hcount

/-! ## Cells of rows -/

theorem name_of_groupCell {first : Record} {numbers : List (String × Binary64)} {column : Column}
    {cell : String × Value} (hcell : groupCell first numbers column = .ok cell) :
    cell.1 = column.name := by
  unfold groupCell at hcell
  split at hcell
  · obtain ⟨_, -, hend⟩ := Answer.bind_eq_ok_iff.1 hcell
    cases hend
    rfl
  · split at hcell
    · cases hcell
      rfl
    · exact nomatch hcell

theorem name_of_recordCell {record : Record} {column : Column} {cell : String × Value}
    (hcell : recordCell record column = .ok cell) : cell.1 = column.name := by
  unfold recordCell at hcell
  split at hcell
  · obtain ⟨_, -, hend⟩ := Answer.bind_eq_ok_iff.1 hcell
    cases hend
    rfl
  · exact nomatch hcell

/-- With distinct column names a row keeps every cell it is made of. -/
theorem cells_ofCells {columns : List Column} (hnodup : (columns.map Column.name).Nodup)
    {cells : List (String × Value)}
    (hnames : List.Forall₂ (fun column cell => cell.1 = column.name) columns cells) :
    (Row.ofCells cells).cells = cells := by
  have hsame : columns.map Column.name = cells.map Prod.fst :=
    map_eq_map_of_forall₂ (hnames.imp fun _ _ => Eq.symm)
  rw [hsame] at hnodup
  exact Json.distinct_eq_self hnodup

/-- The cell of an apply name shows the number of its rule. -/
theorem exists_rule_of_groupCell {first : Record} {members : List Record}
    {rules : List ApplyRule} {numbers : List (String × Binary64)}
    (hnumbers : applied rules members = .ok numbers) {column : Column} {name : String}
    (hsource : column.source = .apply name) {cell : String × Value}
    (hcell : groupCell first numbers column = .ok cell) :
    ∃ rule ∈ rules, rule.name = name ∧ ∃ n, Applies rule members n ∧ cell.2 = .number n := by
  unfold groupCell at hcell
  rw [hsource] at hcell
  dsimp only at hcell
  split at hcell
  next found n hfind =>
    cases hcell
    have hmem := List.mem_reverse.1 (List.mem_of_find?_eq_some hfind)
    have hname := List.find?_some hfind
    obtain ⟨rule, hrule, happlies, hsame⟩ :=
      exists_of_mem_forall₂ (List.Forall₂.flip (applied_eq_ok_iff.1 hnumbers)) hmem
    exact ⟨rule, hrule, hsame.symm.trans (by simpa using hname), n, happlies, rfl⟩
  next => exact nomatch hcell

theorem exists_value_of_groupCell {first : Record} {numbers : List (String × Binary64)}
    {column : Column} {field : Field} (hsource : column.source = .field field)
    {cell : String × Value} (hcell : groupCell first numbers column = .ok cell) :
    first.get? field = some cell.2 := by
  unfold groupCell at hcell
  rw [hsource] at hcell
  obtain ⟨value, hvalue, hend⟩ := Answer.bind_eq_ok_iff.1 hcell
  cases hend
  exact readField_eq_ok_iff.1 hvalue

/-- A row whose cells are texts and finite numbers. -/
def Row.Finite (row : Row) : Prop := ∀ cell ∈ row.cells, cell.2.Finite

theorem finite_of_recordRow {plan : Plan} (hproper : plan.Proper) {record : Record}
    (hfinite : record.hasFiniteNumbers = true) {row : Row}
    (hrow : recordRow plan record = .ok row) : row.Finite := by
  obtain ⟨cells, hcells, hend⟩ := Answer.bind_eq_ok_iff.1 hrow
  cases hend
  have hall := Answer.mapM_eq_ok_iff.1 hcells
  have hnames := hall.imp fun _ _ => name_of_recordCell
  intro cell hcell
  rw [cells_ofCells hproper.distinct_names hnames] at hcell
  obtain ⟨column, -, hmade⟩ := exists_of_mem_forall₂ hall.flip hcell
  unfold recordCell at hmade
  split at hmade
  · obtain ⟨value, hvalue, hsame⟩ := Answer.bind_eq_ok_iff.1 hmade
    cases hsame
    exact Record.finite_of_get? hfinite (readField_eq_ok_iff.1 hvalue)
  · exact nomatch hmade

theorem finite_groupRow_iff {plan : Plan} (hproper : plan.Proper)
    (hgrouped : plan.transform.Proper plan.kind) {members : List Record} (hfilled : members ≠ [])
    (hcounted : members.length < 2 ^ 64) (hkind : ∀ member ∈ members, member.kind = plan.kind)
    (hfinite : ∀ member ∈ members, member.hasFiniteNumbers = true) {row : Row}
    (hrow : groupRow plan members = .ok row) :
    row.Finite ↔ ∀ rule ∈ plan.transform.apply, ¬ rule.Overflows members := by
  obtain ⟨first, rest, rfl⟩ := List.exists_cons_of_ne_nil hfilled
  obtain ⟨numbers, hnumbers, hmade⟩ := Answer.bind_eq_ok_iff.1 hrow
  obtain ⟨cells, hcells, hend⟩ := Answer.bind_eq_ok_iff.1 hmade
  cases hend
  have hall := Answer.mapM_eq_ok_iff.1 hcells
  have hkept := cells_ofCells hproper.distinct_names (hall.imp fun _ _ => name_of_groupCell)
  have hanswer : ∀ rule ∈ plan.transform.apply, ∀ n, Applies rule (first :: rest) n →
      (n.isFinite = true ↔ ¬ rule.Overflows (first :: rest)) := by
    intro rule hrule n happlies
    refine happlies.isFinite_iff (hgrouped.accepts rule hrule) hfilled hcounted ?_ hfinite
    intro member hmember
    exact (hgrouped.apply_kind rule hrule).trans (hkind member hmember).symm
  unfold Row.Finite
  rw [hkept]
  constructor
  · intro hcellsFinite rule hrule
    -- the plan covers its apply names, so the rule's number stands in some cell
    have hsource : ColumnSource.apply rule.name ∈ plan.columns.map Column.source :=
      hproper.covers _ (List.mem_append_right _ (List.mem_map_of_mem hrule))
    obtain ⟨column, hcolumn, hsame⟩ := List.mem_map.1 hsource
    obtain ⟨cell, hcell, hmade⟩ := exists_of_mem_forall₂ hall hcolumn
    obtain ⟨other, hother, hname, n, happlies, hvalue⟩ :=
      exists_rule_of_groupCell hnumbers hsame hmade
    have hunique : other = rule :=
      List.inj_on_of_nodup_map hgrouped.distinct_names hother hrule hname
    have hn := hcellsFinite cell hcell
    rw [hvalue] at hn
    rw [hunique] at happlies
    exact (hanswer rule hrule n happlies).1 hn
  · intro hnever cell hcell
    obtain ⟨column, -, hmade⟩ := exists_of_mem_forall₂ hall.flip hcell
    cases hsource : column.source with
    | field field =>
        exact Record.finite_of_get? (hfinite first List.mem_cons_self)
          (exists_value_of_groupCell hsource hmade)
    | apply name =>
        obtain ⟨rule, hrule, -, n, happlies, hvalue⟩ :=
          exists_rule_of_groupCell hnumbers hsource hmade
        rw [hvalue]
        exact (hanswer rule hrule n happlies).2 (hnever rule hrule)

theorem length_le_of_groupsOf {group : List Field} {records : List Record}
    {groups : List (List Record)} (hgroups : groupsOf group records = .ok groups)
    {members : List Record} (hmembers : members ∈ groups) : members.length ≤ records.length := by
  obtain ⟨-, rfl⟩ := groupsOf_eq_ok_iff.1 hgroups
  obtain ⟨first, -, rfl⟩ := mem_classesBy_iff.1 hmembers
  exact List.length_filter_le _ _

/-- No rule of the plan overflows on a group of the records. -/
def Plan.NeverOverflows (plan : Plan) (records : List Record) : Prop :=
  ∀ groups, groupsOf plan.transform.group records = .ok groups →
    ∀ members ∈ groups, ∀ rule ∈ plan.transform.apply, ¬ rule.Overflows members

theorem Plan.mem_arrange {plan : Plan} {rows : List Row} {row : Row} :
    row ∈ plan.arrange rows ↔ row ∈ rows := by
  unfold Plan.arrange
  split
  · exact Iff.rfl
  · exact List.mem_mergeSort

theorem orFault_eq_ok_iff {α : Type} {result : Except ExecutionFault α} {value : α} :
    orFault result = .ok value ↔ result = .ok value :=
  Answer.mapError_eq_ok_iff

theorem Plan.Proper.finite_rows_iff {plan : Plan} (hproper : plan.Proper) {records : List Record}
    (hkind : ∀ record ∈ records, record.kind = plan.kind)
    (hfinite : ∀ record ∈ records, record.hasFiniteNumbers = true)
    (hcounted : records.length < 2 ^ 64) {maxRows : Nat} {rows : List Row}
    (hrows : plan.rows maxRows records = .ok rows) :
    (∀ row ∈ rows, row.Finite) ↔ plan.NeverOverflows records := by
  rcases hproper.transform with hplain | hgrouped
  · rw [Plan.rows_of_plain hplain] at hrows
    split at hrows
    · exact nomatch hrows
    have hall := Answer.mapM_eq_ok_iff.1 (orFault_eq_ok_iff.1 hrows)
    refine iff_of_true ?_ ?_
    · intro row hrow
      obtain ⟨record, hrecord, hmade⟩ := exists_of_mem_forall₂ hall.flip hrow
      exact finite_of_recordRow hproper (hfinite record hrecord) hmade
    · intro groups _ members _ rule hrule
      rw [hplain] at hrule
      exact absurd hrule List.not_mem_nil
  · obtain ⟨groups, hgroups⟩ : ∃ groups, groupsOf plan.transform.group records = .ok groups :=
      ⟨_, groupsOf_eq fun record hrecord field hfield =>
        (hgrouped.group_kind field hfield).trans (hkind record hrecord).symm⟩
    rw [Plan.rows_of_grouped hgrouped.isGrouped maxRows hgroups] at hrows
    split at hrows
    · exact nomatch hrows
    have hall := Answer.mapM_eq_ok_iff.1 (orFault_eq_ok_iff.1 hrows)
    have hiff : (∀ row ∈ rows, row.Finite) ↔
        ∀ members ∈ groups, ∀ rule ∈ plan.transform.apply, ¬ rule.Overflows members := by
      refine forall_mem_iff_of_forall₂ hall ?_
      intro members hmembers row hrow
      obtain ⟨hfilled, hsub⟩ := mem_of_groupsOf hgroups hmembers
      have hfew := (length_le_of_groupsOf hgroups hmembers).trans_lt hcounted
      exact finite_groupRow_iff hproper hgrouped hfilled hfew
        (fun member hmember => hkind member (hsub member hmember))
        (fun member hmember => hfinite member (hsub member hmember)) hrow
    rw [hiff]
    constructor
    · intro hnever others hothers
      cases hgroups.symm.trans hothers
      exact hnever
    · intro hnever
      exact hnever groups hgroups

/-! ## The mean of every department -/

def means : Json :=
  .object [("WHERE", .object []),
    ("OPTIONS", .object [("COLUMNS", .array [.string "courses_dept", .string "mean"])]),
    ("TRANSFORMATIONS", .object [("GROUP", .array [.string "courses_dept"]),
      ("APPLY", .array [.object [("mean", .object [("AVG", .string "courses_avg")])]])])]

def meansPlan : Plan where
  datasetId := "courses"
  kind := .sections
  filter := none
  columns := [⟨"courses_dept", .field (.section .dept)⟩, ⟨"mean", .apply "mean"⟩]
  order := none
  transform := ⟨[.section .dept], [⟨"mean", .avg, .section .avg⟩]⟩

theorem plan_means (averages : List Binary64) :
    plan (storeOf averages).registry means = .ok meansPlan := by
  have hdept : Bound.Refers ⟨"courses", .sections⟩ "courses_dept" (.section .dept) :=
    ⟨rfl, by decide, by decide, by decide⟩
  have hrule : ApplyRule.WrittenBy ⟨"courses", .sections⟩ ⟨"mean", .avg, .section .avg⟩
      (.object [("mean", .object [("AVG", .string "courses_avg")])]) :=
    .rule (by decide) (by decide) refers_average (.inr rfl)
  have htransform : Transform.WrittenBy ⟨"courses", .sections⟩ meansPlan.transform
      (.object [("GROUP", .array [.string "courses_dept"]),
        ("APPLY", .array [.object [("mean", .object [("AVG", .string "courses_avg")])]])]) :=
    @Transform.WrittenBy.groupApply _ ["courses_dept"] _ _ _ (by decide) (.cons hdept .nil)
      (.cons hrule .nil) (by decide) (by decide)
  have hcolumns : ColumnsWrittenBy ⟨"courses", .sections⟩ (some meansPlan.transform)
      meansPlan.columns (.array [.string "courses_dept", .string "mean"]) := by
    refine ⟨rfl, by simp [meansPlan], ?_, by decide, by decide⟩
    intro column hcolumn
    rcases List.mem_cons.1 hcolumn with rfl | hcolumn
    · exact .reference hdept
    · rw [List.mem_singleton.1 hcolumn]
      exact @ColumnSource.NamedBy.applied _ _ meansPlan.transform
        ⟨"mean", .avg, .section .avg⟩ rfl List.mem_cons_self
  have hwritten := Plan.WrittenBy.transformed .everything htransform (.unordered hcolumns)
    (by intro source; rfl)
  have hregistered : (storeOf averages).registry "courses" = some .sections := rfl
  exact plan_eq_ok_iff.2 (Plan.ofDocument_eq_ok_iff.2 ⟨_, hregistered, hwritten⟩)

/-- A finite number of which two have no finite sum. -/
def huge : Binary64 := .ofScientific false 1 308

/-! ## Runs -/

theorem Plan.Proper.finite_output_iff {plan : Plan} (hproper : plan.Proper) {store : Store}
    (hstore : store.WellFormed) {maxRows : Nat} {output : Output}
    (hrun : plan.run maxRows store = .ok output) (hcounted : output.scanned < 2 ^ 64) :
    ∃ records, store.recordsOf? plan.datasetId = some records ∧
      ((∀ row ∈ output.rows, row.Finite) ↔ plan.NeverOverflows (plan.matching records)) := by
  obtain ⟨records, hrecords, hrunOn⟩ := Plan.run_eq_ok_iff.1 hrun
  obtain ⟨hcheck, rows, hrows, rfl⟩ := Plan.runOn_eq_ok_iff.1 hrunOn
  obtain ⟨dataset, hdataset, rfl⟩ := Option.map_eq_some_iff.1 hrecords
  have hwell := hstore.well_formed dataset (Store.mem_of_get? hdataset).1
  refine ⟨dataset.records, hrecords, ?_⟩
  have hkind := Plan.kind_of_checkKind hwell hcheck
  have hmatching : ∀ record ∈ plan.matching dataset.records, record ∈ dataset.records :=
    fun record => Plan.mem_of_mem_matching
  have hlength : (plan.matching dataset.records).length < 2 ^ 64 :=
    (plan.matching_sublist dataset.records).length_le.trans_lt hcounted
  simp only [Plan.mem_arrange]
  exact hproper.finite_rows_iff (fun record hrecord => hkind record (hmatching record hrecord))
    (fun record hrecord => hwell.finite record (hmatching record hrecord)) hlength hrows

/-- The values of a run on a store that operations built are texts and finite numbers, and none
of them is written as `null`, exactly if no sum or average of the run overflows. -/
theorem finite_run_iff {store : Store} (hstore : store.Reachable) {registry : Registry}
    {document : Json} {found : Plan} (hplan : plan registry document = .ok found) {maxRows : Nat}
    {output : Output} (hrun : found.run maxRows store = .ok output)
    (hcounted : output.scanned < 2 ^ 64) :
    ∃ records, store.recordsOf? found.datasetId = some records ∧
      ((∀ row ∈ output.rows, ∀ cell ∈ row.cells, cell.2.Finite) ↔
        found.NeverOverflows (found.matching records)) ∧
      ((∀ row ∈ output.rows, ∀ cell ∈ row.cells, ¬ cell.2.WrittenAsNull) ↔
        found.NeverOverflows (found.matching records)) := by
  obtain ⟨records, hrecords, hiff⟩ :=
    (proper_of_plan hplan).finite_output_iff hstore.wellFormed hrun hcounted
  refine ⟨records, hrecords, hiff, ?_⟩
  simp only [Value.not_writtenAsNull_iff]
  exact hiff

/-- The department has a mean, and its one total does not overflow. -/
theorem finite_mean :
    ∃ output, (storeOf [.ofNat 90, .ofNat 80]).Reachable ∧
      plan (storeOf [.ofNat 90, .ofNat 80]).registry means = .ok meansPlan ∧
      meansPlan.run 10 (storeOf [.ofNat 90, .ofNat 80]) = .ok output ∧
      output.scanned < 2 ^ 64 ∧
      (∀ row ∈ output.rows, ∀ cell ∈ row.cells, cell.2.Finite) ∧
      meansPlan.NeverOverflows ([.ofNat 90, .ofNat 80].map sectionOf) := by
  have hstore : (storeOf [.ofNat 90, .ofNat 80]).Reachable := by
    refine reachable_storeOf (by simp) fun average haverage => ?_
    have hfinite : ∀ average ∈ [Binary64.ofNat 90, .ofNat 80], average.isFinite = true := by
      decide +kernel
    exact hfinite average haverage
  have hrun : meansPlan.run 10 (storeOf [.ofNat 90, .ofNat 80]) =
      .ok ⟨[⟨[("courses_dept", .text "cpsc"), ("mean", .number (.ofNat 85))]⟩], 2, 2⟩ := by
    decide +kernel
  have hplan := plan_means [.ofNat 90, .ofNat 80]
  obtain ⟨records, hrecords, hiff, -⟩ := finite_run_iff hstore hplan hrun (by decide)
  cases hrecords
  have hcells : ∀ row ∈ [Row.mk [("courses_dept", .text "cpsc"), ("mean", .number (.ofNat 85))]],
      ∀ cell ∈ row.cells, cell.2.Finite := by
    intro row hrow cell hcell
    rw [List.mem_singleton.1 hrow] at hcell
    rcases List.mem_cons.1 hcell with rfl | hcell
    · trivial
    · rw [List.mem_singleton.1 hcell]
      change (Binary64.ofNat 85).isFinite = true
      decide +kernel
  exact ⟨_, hstore, hplan, hrun, by decide, hcells, hiff.1 hcells⟩

/-- Two sections with this average have an infinite mean, although their mean is finite. -/
theorem infinite_mean :
    (storeOf [huge, huge]).Reachable ∧
      plan (storeOf [huge, huge]).registry means = .ok meansPlan ∧
      meansPlan.run 10 (storeOf [huge, huge]) =
        .ok ⟨[⟨[("courses_dept", .text "cpsc"), ("mean", .number (.infinite false))]⟩], 2, 2⟩ ∧
      (Value.number (.infinite false)).WrittenAsNull := by
  have hfinite : huge.isFinite = true := by decide +kernel
  have hstore : (storeOf [huge, huge]).Reachable :=
    reachable_storeOf (by simp) (by simp [hfinite])
  exact ⟨hstore, plan_means _, by decide +kernel, .inl rfl⟩

end Query

end CampusQuery
