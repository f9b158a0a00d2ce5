import CampusQuery.Proofs.Numeric.Comparison
import CampusQuery.Proofs.Query.Groups

/-!
# The types of cells

Every row of a plan has a cell for each column, of the type of the column's
source. Cells of numeric columns may be infinite, as totals may be, but are no
NaN.
-/

namespace CampusQuery

open Numeric Binary64

/-- A text is of type text; a number that is no NaN is numeric. -/
def Value.HasType : Value → FieldType → Prop
  | .text _, type => type = .text
  | .number n, type => type = .numeric ∧ n ≠ .nan

theorem Record.hasType_of_get? {record : Record} (hfinite : record.hasFiniteNumbers = true)
    {field : Field} (hkind : field.kind = record.kind) {value : Value}
    (hvalue : record.get? field = some value) : value.HasType field.fieldType := by
  cases htype : field.fieldType with
  | text =>
      obtain ⟨text, htext⟩ := get?_text hkind htype
      cases hvalue.symm.trans htext
      rfl
  | numeric =>
      obtain ⟨n, hn⟩ := get?_numeric hkind htype
      cases hvalue.symm.trans hn
      exact ⟨rfl, ne_nan_of_isFinite (hasFiniteNumbers_iff.1 hfinite field n hn)⟩

namespace Query

/-! ## Aggregates make no NaN -/

namespace Total

theorem add_ne_nan {total : Total} {n : Binary64} (htotal : total.number ≠ .nan)
    (hn : n.isFinite = true) : (total.add n).number ≠ .nan := by
  rcases total.add_cases n with ⟨sum, hexact⟩ | hfloat
  · rw [hexact]
    exact ne_nan_of_isFinite sum.isFinite_toBinary64
  · rw [hfloat]
    exact Binary64.add_ne_nan htotal hn

theorem ofNumbers_ne_nan {numbers : List Binary64} (hfinite : ∀ n ∈ numbers, n.isFinite = true) :
    (ofNumbers numbers).number ≠ .nan := by
  have hfold : ∀ total : Total, total.number ≠ .nan → (numbers.foldl add total).number ≠ .nan := by
    induction numbers with
    | nil => exact fun total htotal => htotal
    | cons n rest ih =>
        intro total htotal
        exact ih (fun other hother => hfinite other (List.mem_cons_of_mem n hother)) _
          (add_ne_nan htotal (hfinite n List.mem_cons_self))
  exact hfold _ (ne_nan_of_isFinite (Decimal96.isFinite_toBinary64 0))

theorem rounded_ne_nan {total : Total} (htotal : total.number ≠ .nan) : total.rounded ≠ .nan := by
  cases total with
  | exact sum => exact ne_nan_of_isFinite (Decimal96.isFinite_toBinary64 _)
  | float sum => exact roundToHundredths_ne_nan htotal

theorem mean_ne_nan {total mean : Total} {count : Nat} (hmean : total.mean? count = some mean)
    (htotal : total.number ≠ .nan) (hcounted : count < 2 ^ 64) : mean.number ≠ .nan := by
  unfold mean? at hmean
  split at hmean
  · exact nomatch hmean
  next hcount =>
    have hpos := Nat.pos_of_ne_zero hcount
    cases total with
    | exact sum =>
        dsimp only at hmean
        split at hmean <;> cases hmean
        · exact ne_nan_of_isFinite (Decimal96.isFinite_toBinary64 _)
        · exact div_ofNat_ne_nan htotal hpos hcounted
    | float sum =>
        cases hmean
        exact div_ofNat_ne_nan htotal hpos hcounted

end Total

/-- What a rule makes of as many records as a machine word counts is no NaN. -/
theorem Applies.ne_nan {rule : ApplyRule} {members : List Record} {answer : Binary64}
    (happlies : Applies rule members answer) (haccepts : rule.token.accepts rule.field = true)
    (hfilled : members ≠ []) (hcounted : members.length < 2 ^ 64)
    (hkind : ∀ member ∈ members, rule.field.kind = member.kind)
    (hfinite : ∀ member ∈ members, member.hasFiniteNumbers = true) : answer ≠ .nan := by
  by_cases hcount : rule.token = .count
  · obtain ⟨values, -, hanswer⟩ := happlies
    rw [hcount, aggregate_count] at hanswer
    cases hanswer
    exact nearest_ne_nan _ _ _
  · obtain ⟨numbers, hnumbers, hsome, hanswer⟩ :=
      happlies.exists_numbers haccepts hcount hfilled hkind
    have hall := hnumbers.finite hfinite
    have htotal := Total.ofNumbers_ne_nan hall
    cases htoken : rule.token with
    | max =>
        rw [htoken] at hanswer
        exact ne_nan_of_isFinite (isFinite_of_aggregate_max hsome hall hanswer)
    | min =>
        rw [htoken] at hanswer
        exact ne_nan_of_isFinite (isFinite_of_aggregate_min hsome hall hanswer)
    | avg =>
        have hlength : numbers.length ≠ 0 := by simpa using hsome
        obtain ⟨mean, hmean⟩ := (Total.ofNumbers numbers).exists_mean? hlength
        rw [htoken, aggregate_avg hmean] at hanswer
        cases hanswer
        exact Total.rounded_ne_nan (Total.mean_ne_nan hmean htotal (hnumbers.length_eq ▸ hcounted))
    | sum =>
        rw [htoken, aggregate_sum] at hanswer
        cases hanswer
        exact Total.rounded_ne_nan htotal
    | count => exact absurd htoken hcount

/-! ## Rows -/

/-- The type of the cells that a source makes. -/
def ColumnSource.type : ColumnSource → FieldType
  | .field f => f.fieldType
  | .apply _ => .numeric

/-- The row of a record has a cell for every column, and it holds the value of the column's
field. -/
theorem cells_of_recordRow {plan : Plan} (hnodup : plan.columnNames.Nodup) {record : Record}
    {row : Row} (hrow : recordRow plan record = .ok row) :
    row.columns = plan.columnNames ∧ ∀ column ∈ plan.columns, ∃ value,
      row.get? column.name = some value ∧
        ∃ field, column.source = .field field ∧ record.get? field = some value := by
  obtain ⟨cells, hcells, hend⟩ := Answer.bind_eq_ok_iff.1 hrow
  cases hend
  have hall := Answer.mapM_eq_ok_iff.1 hcells
  have hnames := hall.imp fun _ _ => name_of_recordCell
  have hkept := cells_ofCells hnodup hnames
  have hsame : plan.columnNames = cells.map Prod.fst :=
    map_eq_map_of_forall₂ (hnames.imp fun _ _ => Eq.symm)
  refine ⟨by rw [Row.columns, hkept, hsame], fun column hcolumn => ?_⟩
  obtain ⟨cell, hcell, hmade⟩ := exists_of_mem_forall₂ hall hcolumn
  refine ⟨cell.2, ?_, ?_⟩
  · rw [Row.get?, hkept, Json.lookup?_eq_some_iff (hsame ▸ hnodup), ← name_of_recordCell hmade]
    exact hcell
  · unfold recordCell at hmade
    split at hmade
    next field hsource =>
      obtain ⟨value, hvalue, hend⟩ := Answer.bind_eq_ok_iff.1 hmade
      cases hend
      exact ⟨field, hsource, readField_eq_ok_iff.1 hvalue⟩
    next => cases hmade

/-- A row with the columns of a plan, and cells of their types. -/
structure Plan.TypedRow (plan : Plan) (row : Row) : Prop where
  columns : row.columns = plan.columnNames
  cell : ∀ column ∈ plan.columns, ∃ value, row.get? column.name = some value ∧
    value.HasType column.source.type

namespace Plan.Proper

variable {plan : Plan} (hproper : plan.Proper) {records : List Record}

include hproper

theorem typed_of_recordRow {record : Record} (hfinite : record.hasFiniteNumbers = true)
    (hkind : record.kind = plan.kind) {row : Row} (hrow : recordRow plan record = .ok row) :
    plan.TypedRow row := by
  obtain ⟨hcolumns, hcells⟩ := cells_of_recordRow hproper.distinct_names hrow
  refine ⟨hcolumns, fun column hcolumn => ?_⟩
  obtain ⟨value, hvalue, field, hsource, hget⟩ := hcells column hcolumn
  have hfield := (hproper.field_kind column hcolumn field hsource).trans hkind.symm
  refine ⟨value, hvalue, ?_⟩
  rw [hsource]
  exact Record.hasType_of_get? hfinite hfield hget

theorem typed_of_groupRow (hgrouped : plan.transform.Proper plan.kind) {members : List Record}
    (hfilled : members ≠ []) (hcounted : members.length < 2 ^ 64)
    (hkind : ∀ member ∈ members, member.kind = plan.kind)
    (hfinite : ∀ member ∈ members, member.hasFiniteNumbers = true) {row : Row}
    (hrow : groupRow plan members = .ok row) : plan.TypedRow row := by
  obtain ⟨hcolumns, hcells⟩ := cells_of_groupRow hproper.distinct_names hrow
  refine ⟨hcolumns, fun column hcolumn => ?_⟩
  obtain ⟨value, hvalue, hmakes⟩ := hcells column hcolumn
  have hsourceKind := hproper.field_kind column hcolumn
  refine ⟨value, hvalue, ?_⟩
  generalize column.source = source at hmakes hsourceKind
  cases hmakes with
  | field hfirst hget =>
      have hmember := List.mem_of_head? hfirst
      exact Record.hasType_of_get? (hfinite _ hmember)
        ((hsourceKind _ rfl).trans (hkind _ hmember).symm) hget
  | apply hrule happlies =>
      refine ⟨rfl, happlies.ne_nan (hgrouped.accepts _ hrule) hfilled hcounted ?_ hfinite⟩
      exact fun member hmember =>
        (hgrouped.apply_kind _ hrule).trans (hkind member hmember).symm

/-- Rows are made of the matching records one by one, or of their classes. -/
theorem made_rows (hkind : ∀ record ∈ records, record.kind = plan.kind) {maxRows : Nat}
    {rows : List Row} (hrows : plan.rows maxRows records = .ok rows) :
    (plan.transform = .none ∧
        List.Forall₂ (fun record row => recordRow plan record = .ok row) records rows) ∨
      (plan.transform.Proper plan.kind ∧
        List.Forall₂ (fun members row => groupRow plan members = .ok row)
          (classesBy (keyOf plan.transform.group) records) rows) := by
  rcases hproper.transform with hplain | hgrouped
  · rw [Plan.rows_of_plain hplain] at hrows
    split at hrows
    · cases hrows
    · exact .inl ⟨hplain, Answer.mapM_eq_ok_iff.1 (orFault_eq_ok_iff.1 hrows)⟩
  · obtain ⟨made, hmade, hall⟩ := hproper.exists_rows hgrouped hkind
    rw [hall] at hrows
    split at hrows
    · cases hrows
    · cases hrows
      exact .inr ⟨hgrouped, hmade⟩

/-- Over records of its kind, with finite numbers and not too many to count, a plan makes typed
rows. -/
theorem typed_rows (hkind : ∀ record ∈ records, record.kind = plan.kind)
    (hfinite : ∀ record ∈ records, record.hasFiniteNumbers = true)
    (hcounted : records.length < 2 ^ 64) {maxRows : Nat} {rows : List Row}
    (hrows : plan.rows maxRows records = .ok rows) : ∀ row ∈ rows, plan.TypedRow row := by
  intro row hrow
  rcases hproper.made_rows hkind hrows with ⟨-, hall⟩ | ⟨hgrouped, hall⟩
  · obtain ⟨record, hrecord, hmade⟩ := exists_of_mem_forall₂ hall.flip hrow
    exact hproper.typed_of_recordRow (hfinite record hrecord) (hkind record hrecord) hmade
  · obtain ⟨members, hmembers, hmade⟩ := exists_of_mem_forall₂ hall.flip hrow
    have hsub : ∀ member ∈ members, member ∈ records :=
      fun _ hmember => mem_of_mem_classesBy hmembers hmember
    have hfew : members.length < 2 ^ 64 := by
      obtain ⟨first, -, rfl⟩ := mem_classesBy_iff.1 hmembers
      exact (List.length_filter_le _ _).trans_lt hcounted
    exact hproper.typed_of_groupRow hgrouped (ne_nil_of_mem_classesBy hmembers) hfew
      (fun member hmember => hkind member (hsub member hmember))
      (fun member hmember => hfinite member (hsub member hmember)) hmade

end Plan.Proper

end Query

end CampusQuery
