import CampusQuery.Proofs.Query.Identity

/-!
# Groups and their rows

A query with a transformation makes one row for each group. The groups are the
classes of the matching records with equal values in the group fields, and a
row shows these values beside the numbers of the apply rules over its group.
-/

namespace CampusQuery.Query

open Numeric

variable {registry : Registry} {bound : Bound} {document : Json} {found : Plan}

/-! ## Plans with a transformation -/

/-- The document has a transformation. -/
def Transforms (document : Json) : Prop :=
  ∃ entries, document = .object entries ∧ "TRANSFORMATIONS" ∈ entries.map Prod.fst

/-- What holds of the plan of a document with a transformation: its columns are the group fields
and the apply names, and a number stands under the name of its rule. -/
structure Plan.Grouped (plan : Plan) : Prop where
  proper : plan.Proper
  transform : plan.transform.Proper plan.kind
  sources : ∀ source,
    source ∈ plan.columns.map Column.source ↔ source ∈ plan.transform.sources
  apply_named : ∀ column ∈ plan.columns, ∀ name, column.source = .apply name → column.name = name

theorem ColumnsWrittenBy.apply_named {transform : Option Transform} {columns : List Column}
    {json : Json} (hcolumns : ColumnsWrittenBy bound transform columns json) {column : Column}
    (hcolumn : column ∈ columns) {name : String} (hsource : column.source = .apply name) :
    column.name = name := by
  have hnamed := hcolumns.named column hcolumn
  rw [hsource] at hnamed
  generalize column.name = named at hnamed
  cases hnamed with
  | applied => rfl

theorem Plan.WrittenBy.grouped (hwritten : found.WrittenBy bound document)
    (htransforms : Transforms document) : found.Grouped := by
  obtain ⟨entries, hentries, hkey⟩ := htransforms
  have hproper := hwritten.proper
  cases hwritten with
  | plain =>
      cases hentries
      exact absurd hkey (by simp)
  | transformed _ htransform hoptions hsame =>
      obtain ⟨_, hcolumns⟩ := hoptions.exists_columns
      exact ⟨hproper, htransform.proper, hsame, fun column hcolumn _ =>
        hcolumns.apply_named hcolumn⟩

theorem grouped_of_plan (hplan : plan registry document = .ok found)
    (htransforms : Transforms document) : found.Grouped := by
  obtain ⟨_, -, hwritten⟩ := Plan.ofDocument_eq_ok_iff.1 (plan_eq_ok_iff.1 hplan)
  exact hwritten.grouped htransforms

/-! ## Rows of groups -/

/-- What the source of a column makes of a group. -/
inductive ColumnSource.Makes (rules : List ApplyRule) (members : List Record) :
    ColumnSource → Value → Prop where
  | field {field : Field} {first : Record} {value : Value} : members.head? = some first →
      first.get? field = some value → Makes rules members (.field field) value
  | apply {rule : ApplyRule} {n : Binary64} : rule ∈ rules → Applies rule members n →
      Makes rules members (.apply rule.name) (.number n)

theorem makes_of_groupCell {rules : List ApplyRule} {first : Record} {rest : List Record}
    {numbers : List (String × Binary64)} (hnumbers : applied rules (first :: rest) = .ok numbers)
    {column : Column} {cell : String × Value} (hcell : groupCell first numbers column = .ok cell) :
    column.source.Makes rules (first :: rest) cell.2 := by
  cases hsource : column.source with
  | field field => exact .field rfl (exists_value_of_groupCell hsource hcell)
  | apply name =>
      obtain ⟨rule, hrule, rfl, n, happlies, hvalue⟩ :=
        exists_rule_of_groupCell hnumbers hsource hcell
      rw [hvalue]
      exact .apply hrule happlies

/-- The row of a group has a cell for every column, and it holds what the column's source makes
of the group. -/
theorem cells_of_groupRow {plan : Plan} (hnodup : plan.columnNames.Nodup) {members : List Record}
    {row : Row} (hrow : groupRow plan members = .ok row) :
    row.columns = plan.columnNames ∧ ∀ column ∈ plan.columns, ∃ value,
      row.get? column.name = some value ∧
        column.source.Makes plan.transform.apply members value := by
  cases members with
  | nil => exact nomatch hrow
  | cons first rest =>
      obtain ⟨numbers, hnumbers, hmade⟩ := Answer.bind_eq_ok_iff.1 hrow
      obtain ⟨cells, hcells, hend⟩ := Answer.bind_eq_ok_iff.1 hmade
      cases hend
      have hall := Answer.mapM_eq_ok_iff.1 hcells
      have hnames := hall.imp fun _ _ => name_of_groupCell
      have hkept := cells_ofCells hnodup hnames
      have hsame : plan.columnNames = cells.map Prod.fst :=
        map_eq_map_of_forall₂ (hnames.imp fun _ _ => Eq.symm)
      refine ⟨by rw [Row.columns, hkept, hsame], fun column hcolumn => ?_⟩
      obtain ⟨cell, hcell, hmade⟩ := exists_of_mem_forall₂ hall hcolumn
      refine ⟨cell.2, ?_, makes_of_groupCell hnumbers hmade⟩
      rw [Row.get?, hkept, Json.lookup?_eq_some_iff (hsame ▸ hnodup), ← name_of_groupCell hmade]
      exact hcell

/-- A row that shows a group: the values that its members share in the group fields, and the
number of every rule over its members, under the rule's name. -/
structure Plan.RowOf (plan : Plan) (members : List Record) (row : Row) : Prop where
  columns : row.columns = plan.columnNames
  field_shown : ∀ field ∈ plan.transform.group, ∃ column ∈ plan.columns,
    column.source = .field field
  field_cell : ∀ column ∈ plan.columns, ∀ field, column.source = .field field →
    ∃ value, row.get? column.name = some value ∧ ∀ member ∈ members,
      ∃ own, member.get? field = some own ∧ value.same own = true
  apply_cell : ∀ rule ∈ plan.transform.apply,
    ∃ n, Applies rule members n ∧ row.get? rule.name = some (.number n)

namespace Plan.Grouped

variable {members : List Record} {row : Row}

/-- The cell of a group field is the first member's value, which the others share. -/
theorem field_cell (hgrouped : found.Grouped)
    (hsame : ∀ a ∈ members, ∀ b ∈ members, sameIn found.transform.group a b = true)
    (hrow : groupRow found members = .ok row) {column : Column} (hcolumn : column ∈ found.columns)
    {field : Field} (hsource : column.source = .field field) :
    ∃ value, row.get? column.name = some value ∧ ∀ member ∈ members,
      ∃ own, member.get? field = some own ∧ value.same own = true := by
  obtain ⟨value, hvalue, hmakes⟩ :=
    (cells_of_groupRow hgrouped.proper.distinct_names hrow).2 column hcolumn
  have hfield : field ∈ found.transform.group := by
    have hmem := (hgrouped.sources _).1 (List.mem_map.2 ⟨column, hcolumn, hsource⟩)
    simpa [Transform.sources] using hmem
  rw [hsource] at hmakes
  cases hmakes with
  | field hfirst hget =>
      exact ⟨value, hvalue, fun member hmember =>
        exists_same_of_sameIn (hsame _ (List.mem_of_head? hfirst) member hmember) hfield hget⟩

/-- The number of a rule stands under the rule's name. -/
theorem apply_cell (hgrouped : found.Grouped) (hrow : groupRow found members = .ok row)
    {rule : ApplyRule} (hrule : rule ∈ found.transform.apply) :
    ∃ n, Applies rule members n ∧ row.get? rule.name = some (.number n) := by
  have hsource := (hgrouped.sources (.apply rule.name)).2
    (List.mem_append_right _ (List.mem_map_of_mem hrule))
  obtain ⟨column, hcolumn, hsource⟩ := List.mem_map.1 hsource
  obtain ⟨value, hvalue, hmakes⟩ :=
    (cells_of_groupRow hgrouped.proper.distinct_names hrow).2 column hcolumn
  rw [hgrouped.apply_named column hcolumn _ hsource] at hvalue
  generalize hname : rule.name = name at hsource
  rw [hsource] at hmakes
  cases hmakes with
  | @apply other n hother happlies =>
      obtain rfl : other = rule :=
        List.inj_on_of_nodup_map hgrouped.transform.distinct_names hother hrule hname.symm
      exact ⟨n, happlies, hvalue⟩

theorem rowOf (hgrouped : found.Grouped)
    (hsame : ∀ a ∈ members, ∀ b ∈ members, sameIn found.transform.group a b = true)
    (hrow : groupRow found members = .ok row) : found.RowOf members row where
  columns := (cells_of_groupRow hgrouped.proper.distinct_names hrow).1
  field_shown field hfield := List.mem_map.1 ((hgrouped.sources (.field field)).2
    (List.mem_append_left _ (List.mem_map_of_mem hfield)))
  field_cell _ hcolumn _ hsource := hgrouped.field_cell hsame hrow hcolumn hsource
  apply_cell _ hrule := hgrouped.apply_cell hrow hrule

end Plan.Grouped

/-! ## Runs -/

/-- A run on a dataset that passes the check makes rows and arranges them. -/
theorem Plan.run_of_checked (plan : Plan) (maxRows : Nat) {store : Store} {records : List Record}
    (hrecords : store.recordsOf? plan.datasetId = some records)
    (hcheck : plan.checkKind records = .ok ()) :
    plan.run maxRows store = (plan.rows maxRows (plan.matching records)).map fun rows =>
      ⟨plan.arrange rows, records.length, (plan.matching records).length⟩ := by
  unfold Plan.run
  rw [hrecords]
  dsimp only
  unfold Plan.runOn
  rw [hcheck]
  cases hrows : plan.rows maxRows (plan.matching records) with
  | error => simp [hrows, bind, Except.bind, Except.map]
  | ok => simp [hrows, bind, Except.bind, Except.map]

/-- The groups of a query with a transformation are the classes of its matching records with equal
values in every group field. Before it is arranged, the answer has one row for each, in their
order. -/
theorem groups_are_classes {store : Store} (hstore : store.Reachable)
    (hplan : plan registry document = .ok found) (htransforms : Transforms document)
    {records : List Record} (hrecords : store.recordsOf? found.datasetId = some records)
    (hcheck : found.checkKind records = .ok ()) :
    ∃ groups rows, groupsOf found.transform.group (found.matching records) = .ok groups ∧
      Partitions (sameIn found.transform.group) (found.matching records) groups ∧
      List.Forall₂ found.RowOf groups rows ∧
      ∀ maxRows,
        found.rows maxRows (found.matching records) =
          (if maxRows < groups.length then .error (.tooLarge groups.length maxRows)
            else .ok rows) ∧
        found.run maxRows store =
          if maxRows < groups.length then .error (.tooLarge groups.length maxRows)
            else .ok ⟨found.arrange rows, records.length, (found.matching records).length⟩ := by
  have hgrouped := grouped_of_plan hplan htransforms
  obtain ⟨dataset, hdataset, rfl⟩ := Option.map_eq_some_iff.1 hrecords
  have hwell := hstore.wellFormed.well_formed dataset (Store.mem_of_get? hdataset).1
  have hkind : ∀ record ∈ found.matching dataset.records, record.kind = found.kind :=
    fun record hrecord => Plan.kind_of_checkKind hwell hcheck record
      (Plan.mem_of_mem_matching hrecord)
  have hfinite : ∀ record ∈ found.matching dataset.records, record.hasFiniteNumbers = true :=
    fun record hrecord => hwell.finite record (Plan.mem_of_mem_matching hrecord)
  have hfields : ∀ record ∈ found.matching dataset.records, ∀ field ∈ found.transform.group,
      field.kind = record.kind := fun record hrecord field hfield =>
    (hgrouped.transform.group_kind field hfield).trans (hkind record hrecord).symm
  have hpartitions : Partitions (sameIn found.transform.group) (found.matching dataset.records)
      (classesBy (keyOf found.transform.group) (found.matching dataset.records)) :=
    partitions_classesBy fun a ha b hb =>
      sameIn_iff (hfields a ha) (hfields b hb) (hfinite a ha) (hfinite b hb)
  obtain ⟨rows, hall, hrows⟩ := hgrouped.proper.exists_rows hgrouped.transform hkind
  refine ⟨_, rows, groupsOf_eq hfields, hpartitions, ?_, fun maxRows => ⟨hrows maxRows, ?_⟩⟩
  · have hsame : ∀ members ∈ classesBy (keyOf found.transform.group)
        (found.matching dataset.records), ∀ a ∈ members, ∀ b ∈ members,
          sameIn found.transform.group a b = true :=
      fun _ hmembers _ ha _ hb => hpartitions.same_of_mem hmembers ha hb
    exact ((List.forall₂_and_left _ _).2 ⟨hsame, hall⟩).imp fun _ _ hboth =>
      hgrouped.rowOf hboth.1 hboth.2
  · rw [found.run_of_checked maxRows hrecords hcheck, hrows maxRows]
    split <;> rfl

/-! ## The sections of every average -/

def byAverage : Json :=
  .object [("WHERE", .object []),
    ("OPTIONS", .object [("COLUMNS", .array [.string "courses_avg", .string "passed"]),
      ("ORDER", .string "courses_avg")]),
    ("TRANSFORMATIONS", .object [("GROUP", .array [.string "courses_avg"]),
      ("APPLY", .array [.object [("passed", .object [("SUM", .string "courses_pass")])]])])]

def byAveragePlan : Plan where
  datasetId := "courses"
  kind := .sections
  filter := none
  columns := [⟨"courses_avg", .field (.section .avg)⟩, ⟨"passed", .apply "passed"⟩]
  order := some ⟨["courses_avg"], .up⟩
  transform := ⟨[.section .avg], [⟨"passed", .sum, .section .pass⟩]⟩

theorem plan_byAverage (averages : List Binary64) :
    plan (storeOf averages).registry byAverage = .ok byAveragePlan := by
  have hpass : Bound.Refers ⟨"courses", .sections⟩ "courses_pass" (.section .pass) :=
    ⟨rfl, by decide, by decide, by decide⟩
  have hrule : ApplyRule.WrittenBy ⟨"courses", .sections⟩ ⟨"passed", .sum, .section .pass⟩
      (.object [("passed", .object [("SUM", .string "courses_pass")])]) :=
    .rule (by decide) (by decide) hpass (.inr rfl)
  have htransform : Transform.WrittenBy ⟨"courses", .sections⟩ byAveragePlan.transform
      (.object [("GROUP", .array [.string "courses_avg"]),
        ("APPLY", .array [.object [("passed", .object [("SUM", .string "courses_pass")])]])]) :=
    @Transform.WrittenBy.groupApply _ ["courses_avg"] _ _ _ (by decide) (.cons refers_average .nil)
      (.cons hrule .nil) (by decide) (by decide)
  have hcolumns : ColumnsWrittenBy ⟨"courses", .sections⟩ (some byAveragePlan.transform)
      byAveragePlan.columns (.array [.string "courses_avg", .string "passed"]) := by
    refine ⟨rfl, by simp [byAveragePlan], ?_, by decide, by decide⟩
    intro column hcolumn
    rcases List.mem_cons.1 hcolumn with rfl | hcolumn
    · exact .reference refers_average
    · rw [List.mem_singleton.1 hcolumn]
      exact @ColumnSource.NamedBy.applied _ _ byAveragePlan.transform
        ⟨"passed", .sum, .section .pass⟩ rfl List.mem_cons_self
  have hwritten := Plan.WrittenBy.transformed .everything htransform
    (.ordered hcolumns (.key List.mem_cons_self)) (by intro source; rfl)
  have hregistered : (storeOf averages).registry "courses" = some .sections := rfl
  exact plan_eq_ok_iff.2 (Plan.ofDocument_eq_ok_iff.2 ⟨_, hregistered, hwritten⟩)

/-- The two zeros are one average, which is met after ninety. -/
theorem zeros_are_one_group :
    (storeOf [.ofNat 90, 0, .signedZero true]).Reachable ∧
      plan (storeOf [.ofNat 90, 0, .signedZero true]).registry byAverage = .ok byAveragePlan ∧
      Transforms byAverage ∧
      ∃ groups rows,
        groups = [[sectionOf (.ofNat 90)], [sectionOf 0, sectionOf (.signedZero true)]] ∧
        rows = [⟨[("courses_avg", .number (.ofNat 90)), ("passed", .number (.ofNat 10))]⟩,
          ⟨[("courses_avg", .number 0), ("passed", .number (.ofNat 20))]⟩] ∧
        Partitions (sameIn [.section .avg]) ([.ofNat 90, 0, .signedZero true].map sectionOf)
          groups ∧
        List.Forall₂ byAveragePlan.RowOf groups rows ∧
        byAveragePlan.run 10 (storeOf [.ofNat 90, 0, .signedZero true]) =
          .ok ⟨byAveragePlan.arrange rows, 3, 3⟩ := by
  have hstore : (storeOf [.ofNat 90, 0, .signedZero true]).Reachable := by
    refine reachable_storeOf (by simp) ?_
    decide +kernel
  have hplan := plan_byAverage [.ofNat 90, 0, .signedZero true]
  have htransforms : Transforms byAverage := ⟨_, rfl, by simp⟩
  obtain ⟨groups, rows, hgroups, hpartitions, hall, hruns⟩ :=
    groups_are_classes hstore hplan htransforms rfl (by rfl)
  have hclasses : groupsOf [.section .avg] ([.ofNat 90, 0, .signedZero true].map sectionOf) =
      .ok [[sectionOf (.ofNat 90)], [sectionOf 0, sectionOf (.signedZero true)]] := by
    decide +kernel
  have hmade : byAveragePlan.rows 10 ([.ofNat 90, 0, .signedZero true].map sectionOf) =
      .ok [⟨[("courses_avg", .number (.ofNat 90)), ("passed", .number (.ofNat 10))]⟩,
        ⟨[("courses_avg", .number 0), ("passed", .number (.ofNat 20))]⟩] := by
    decide +kernel
  cases hgroups.symm.trans hclasses
  obtain ⟨hrows, hrun⟩ := hruns 10
  cases hrows.symm.trans hmade
  exact ⟨hstore, hplan, htransforms, _, _, rfl, rfl, hpartitions, hall, hrun⟩

end CampusQuery.Query
