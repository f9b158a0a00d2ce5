import CampusQuery.Query.Execution
import CampusQuery.Proofs.Query.Aggregates
import CampusQuery.Proofs.Query.Classes
import CampusQuery.Proofs.Query.Transformations

/-!
# How rows are made

A proper plan reads only fields and names that are there, so over records of its
kind nothing but the number of rows can keep it from making them.
-/

namespace CampusQuery.Query

open Numeric

/-! ## Reading fields -/

theorem readField_eq_ok_iff {record : Record} {field : Field} {value : Value} :
    readField record field = .ok value ↔ record.get? field = some value := by
  unfold readField
  cases record.get? field <;> simp

theorem exists_readField {record : Record} {field : Field} (hkind : field.kind = record.kind) :
    ∃ value, readField record field = .ok value := by
  obtain ⟨value, hvalue⟩ := Option.isSome_iff_exists.1 (Record.get?_isSome_iff.2 hkind)
  exact ⟨value, readField_eq_ok_iff.2 hvalue⟩

/-- The numbers that a numeric field holds in some records. -/
def NumbersOf (field : Field) (members : List Record) (numbers : List Binary64) : Prop :=
  List.Forall₂ (fun member n => member.get? field = some (.number n)) members numbers

theorem exists_numbersOf {field : Field} {members : List Record}
    (hkind : ∀ member ∈ members, field.kind = member.kind) (htype : field.fieldType = .numeric) :
    ∃ numbers, NumbersOf field members numbers := by
  obtain ⟨numbers, hnumbers⟩ := exists_forall₂ fun member hmember =>
    Record.get?_numeric (hkind member hmember) htype
  exact ⟨numbers, hnumbers.flip⟩

theorem NumbersOf.mapM_readField {field : Field} {members : List Record} {numbers : List Binary64}
    (hnumbers : NumbersOf field members numbers) :
    members.mapM (fun record => readField record field) = .ok (numbers.map Value.number) := by
  rw [Answer.mapM_eq_ok_iff, List.forall₂_map_right_iff]
  exact hnumbers.imp fun _ _ hn => readField_eq_ok_iff.2 hn

/-! ## Applying rules -/

/-- The number that a rule makes of a group. -/
def Applies (rule : ApplyRule) (members : List Record) (n : Binary64) : Prop :=
  ∃ values, members.mapM (fun record => readField record rule.field) = .ok values ∧
    aggregate rule.token values = .ok n

theorem applied_eq_ok_iff {rules : List ApplyRule} {members : List Record}
    {numbers : List (String × Binary64)} :
    applied rules members = .ok numbers ↔
      List.Forall₂ (fun rule entry => Applies rule members entry.2 ∧ entry.1 = rule.name)
        rules numbers := by
  unfold applied
  rw [Answer.mapM_eq_ok_iff]
  apply iff_of_eq
  congr
  funext rule entry
  rw [eq_iff_iff, Answer.bind_eq_ok_iff]
  constructor
  · intro hrun
    obtain ⟨values, hvalues, hrest⟩ := hrun
    obtain ⟨n, hn, hend⟩ := Answer.bind_eq_ok_iff.1 hrest
    cases hend
    exact ⟨⟨values, hvalues, hn⟩, rfl⟩
  · intro happlies
    obtain ⟨⟨values, hvalues, hn⟩, hname⟩ := happlies
    refine ⟨values, hvalues, Answer.bind_eq_ok_iff.2 ⟨entry.2, hn, ?_⟩⟩
    rw [← hname]

/-- A rule whose token takes its field makes a number of every group. -/
theorem exists_applies {rule : ApplyRule} {members : List Record} (hfilled : members ≠ [])
    (hkind : ∀ member ∈ members, rule.field.kind = member.kind)
    (haccepts : rule.token.accepts rule.field = true) : ∃ n, Applies rule members n := by
  rcases ApplyToken.accepts_eq_true_iff.1 haccepts with hcount | htype
  · obtain ⟨values, hvalues⟩ := Answer.exists_mapM fun member hmember =>
      exists_readField (hkind member hmember)
    exact ⟨_, values, hvalues, hcount ▸ aggregate_count values⟩
  · obtain ⟨numbers, hnumbers⟩ := exists_numbersOf hkind htype
    have hsome : numbers ≠ [] := by
      rintro rfl
      exact hfilled (List.forall₂_nil_right_iff.1 hnumbers)
    obtain ⟨n, hn⟩ := exists_aggregate rule.token hsome
    exact ⟨n, _, hnumbers.mapM_readField, hn⟩

/-! ## Groups -/

/-- The key of a record, as far as it has the group fields. -/
def keyOf (group : List Field) (record : Record) : GroupKey :=
  group.filterMap fun field => (record.get? field).map KeyPart.ofValue

theorem eq_keyOf {group : List Field} {record : Record} {key : GroupKey}
    (hkey : groupKey group record = .ok key) : key = keyOf group record := by
  have hparts := Answer.mapM_eq_ok_iff.1 hkey
  clear hkey
  induction hparts with
  | nil => rfl
  | @cons field part rest _ hpart _ ih =>
      obtain ⟨value, hvalue, hend⟩ := Answer.bind_eq_ok_iff.1 hpart
      cases hend
      simp [keyOf, readField_eq_ok_iff.1 hvalue, ih]

/-- Records are put into groups if all of them have a key, and then each into that of its key. -/
theorem foldlM_putRecord_eq_ok_iff {group : List Field} {records : List Record}
    {before after : List (GroupKey × Array Record)} :
    records.foldlM (putRecord group) before = .ok after ↔
      (∀ record ∈ records, ∃ key, groupKey group record = .ok key) ∧
        after = placesBy (keyOf group) before records := by
  induction records generalizing before with
  | nil => simp [placesBy, pure, Except.pure, eq_comm]
  | cons record rest ih =>
      rw [List.foldlM_cons, Answer.bind_eq_ok_iff, List.forall_mem_cons]
      constructor
      · intro hrun
        obtain ⟨next, hnext, hrest⟩ := hrun
        obtain ⟨key, hkey, hend⟩ := Answer.bind_eq_ok_iff.1 hnext
        cases hend
        obtain ⟨hkeys, rfl⟩ := ih.1 hrest
        rw [eq_keyOf hkey]
        exact ⟨⟨⟨key, hkey⟩, hkeys⟩, rfl⟩
      · intro hkeys
        obtain ⟨⟨⟨key, hkey⟩, hkeys⟩, rfl⟩ := hkeys
        refine ⟨_, Answer.bind_eq_ok_iff.2 ⟨key, hkey, rfl⟩, ih.2 ⟨hkeys, ?_⟩⟩
        rw [eq_keyOf hkey]
        rfl

/-- The groups of records that have keys are the classes of their keys. -/
theorem groupsOf_eq_ok_iff {group : List Field} {records : List Record}
    {groups : List (List Record)} :
    groupsOf group records = .ok groups ↔
      (∀ record ∈ records, ∃ key, groupKey group record = .ok key) ∧
        groups = classesBy (keyOf group) records := by
  unfold groupsOf
  rw [Answer.bind_eq_ok_iff]
  constructor
  · intro hrun
    obtain ⟨places, hplaces, hend⟩ := hrun
    obtain ⟨hkeys, rfl⟩ := foldlM_putRecord_eq_ok_iff.1 hplaces
    cases hend
    exact ⟨hkeys, rfl⟩
  · intro hgroups
    obtain ⟨hkeys, rfl⟩ := hgroups
    exact ⟨_, foldlM_putRecord_eq_ok_iff.2 ⟨hkeys, rfl⟩, rfl⟩

theorem exists_groupKey {group : List Field} {record : Record}
    (hkind : ∀ field ∈ group, field.kind = record.kind) :
    ∃ key, groupKey group record = .ok key := by
  refine Answer.exists_mapM fun field hfield => ?_
  obtain ⟨value, hvalue⟩ := exists_readField (hkind field hfield)
  exact ⟨_, Answer.bind_eq_ok_iff.2 ⟨value, hvalue, rfl⟩⟩

theorem groupsOf_eq {group : List Field} {records : List Record}
    (hkind : ∀ record ∈ records, ∀ field ∈ group, field.kind = record.kind) :
    groupsOf group records = .ok (classesBy (keyOf group) records) :=
  groupsOf_eq_ok_iff.2 ⟨fun record hrecord => exists_groupKey (hkind record hrecord), rfl⟩

/-- A group has a member, and all its members are among the records. -/
theorem mem_of_groupsOf {group : List Field} {records : List Record} {groups : List (List Record)}
    (hgroups : groupsOf group records = .ok groups) {members : List Record}
    (hmembers : members ∈ groups) : members ≠ [] ∧ ∀ member ∈ members, member ∈ records := by
  obtain ⟨-, rfl⟩ := groupsOf_eq_ok_iff.1 hgroups
  exact ⟨ne_nil_of_mem_classesBy hmembers, fun _ hmember => mem_of_mem_classesBy hmembers hmember⟩

/-! ## Rows -/

/-- What holds of every plan that is written by a document. -/
structure Plan.Proper (plan : Plan) : Prop where
  field_kind : ∀ column ∈ plan.columns, ∀ field, column.source = .field field →
    field.kind = plan.kind
  apply_known : ∀ column ∈ plan.columns, ∀ name, column.source = .apply name →
    name ∈ plan.transform.apply.map ApplyRule.name
  covers : ∀ source ∈ plan.transform.sources, source ∈ plan.columns.map Column.source
  distinct_names : plan.columnNames.Nodup
  transform : plan.transform = .none ∨ plan.transform.Proper plan.kind

theorem exists_groupCell {first : Record} {numbers : List (String × Binary64)} {column : Column}
    (hfield : ∀ field, column.source = .field field → field.kind = first.kind)
    (happly : ∀ name, column.source = .apply name → name ∈ numbers.map Prod.fst) :
    ∃ cell, groupCell first numbers column = .ok cell := by
  unfold groupCell
  split
  next field hsource =>
    obtain ⟨value, hvalue⟩ := exists_readField (hfield field hsource)
    exact ⟨_, Answer.bind_eq_ok_iff.2 ⟨value, hvalue, rfl⟩⟩
  next name hsource =>
    split
    next => exact ⟨_, rfl⟩
    next hmissing =>
      obtain ⟨entry, hentry, hname⟩ := List.mem_map.1 (happly name hsource)
      have hnot := List.find?_eq_none.1 hmissing entry (List.mem_reverse.2 hentry)
      exact absurd hname (by simpa using hnot)

theorem Plan.rows_of_plain {plan : Plan} (hplain : plan.transform = .none) (maxRows : Nat)
    (records : List Record) :
    plan.rows maxRows records =
      if maxRows < records.length then .error (.tooLarge records.length maxRows)
      else orFault (records.mapM (recordRow plan)) := by
  unfold Plan.rows checkSize
  rw [hplain, if_neg (by decide)]
  split <;> rfl

theorem Plan.rows_of_grouped {plan : Plan} (hgrouped : plan.transform.isGrouped = true)
    (maxRows : Nat) {records : List Record} {groups : List (List Record)}
    (hgroups : groupsOf plan.transform.group records = .ok groups) :
    plan.rows maxRows records =
      if maxRows < groups.length then .error (.tooLarge groups.length maxRows)
      else orFault (groups.mapM (groupRow plan)) := by
  unfold Plan.rows checkSize
  rw [if_pos hgrouped, hgroups]
  change Except.bind (if maxRows < groups.length then _ else _) _ = _
  split <;> rfl

namespace Plan.Proper

variable {plan : Plan} (hproper : plan.Proper) {records : List Record}

include hproper

theorem exists_groupRow (hgrouped : plan.transform.Proper plan.kind) {members : List Record}
    (hfilled : members ≠ []) (hkind : ∀ member ∈ members, member.kind = plan.kind) :
    ∃ row, groupRow plan members = .ok row := by
  have hnumbers : ∃ numbers, applied plan.transform.apply members = .ok numbers := by
    refine Answer.exists_mapM fun rule hrule => ?_
    obtain ⟨n, values, hvalues, hn⟩ := exists_applies hfilled
      (fun member hmember => (hgrouped.apply_kind rule hrule).trans (hkind member hmember).symm)
      (hgrouped.accepts rule hrule)
    exact ⟨_, Answer.bind_eq_ok_iff.2 ⟨values, hvalues, Answer.bind_eq_ok_iff.2 ⟨n, hn, rfl⟩⟩⟩
  obtain ⟨numbers, hnumbers⟩ := hnumbers
  obtain ⟨first, rest, rfl⟩ := List.exists_cons_of_ne_nil hfilled
  have hnames : plan.transform.apply.map ApplyRule.name = numbers.map Prod.fst :=
    map_eq_map_of_forall₂ ((applied_eq_ok_iff.1 hnumbers).imp fun _ _ hentry => hentry.2.symm)
  have hcells : ∃ cells, plan.columns.mapM (groupCell first numbers) = .ok cells := by
    refine Answer.exists_mapM fun column hcolumn => exists_groupCell ?_ ?_
    · intro field hsource
      exact (hproper.field_kind column hcolumn field hsource).trans
        (hkind first List.mem_cons_self).symm
    · intro name hsource
      rw [← hnames]
      exact hproper.apply_known column hcolumn name hsource
  obtain ⟨cells, hcells⟩ := hcells
  exact ⟨_, Answer.bind_eq_ok_iff.2 ⟨numbers, hnumbers, Answer.bind_eq_ok_iff.2 ⟨cells, hcells, rfl⟩⟩⟩

theorem exists_recordRow (hplain : plan.transform = .none) {record : Record}
    (hkind : record.kind = plan.kind) : ∃ row, recordRow plan record = .ok row := by
  have hcells : ∃ cells, plan.columns.mapM (recordCell record) = .ok cells := by
    refine Answer.exists_mapM fun column hcolumn => ?_
    unfold recordCell
    split
    next field hsource =>
      have hfield := (hproper.field_kind column hcolumn field hsource).trans hkind.symm
      obtain ⟨value, hvalue⟩ := exists_readField hfield
      exact ⟨_, Answer.bind_eq_ok_iff.2 ⟨value, hvalue, rfl⟩⟩
    next name hsource =>
      have hknown := hproper.apply_known column hcolumn name hsource
      rw [hplain] at hknown
      exact absurd hknown List.not_mem_nil
  obtain ⟨cells, hcells⟩ := hcells
  exact ⟨_, Answer.bind_eq_ok_iff.2 ⟨cells, hcells, rfl⟩⟩

/-- Over records of its kind a plan with a transformation makes one row of every class. -/
theorem exists_rows (hgrouped : plan.transform.Proper plan.kind)
    (hkind : ∀ record ∈ records, record.kind = plan.kind) :
    ∃ rows, List.Forall₂ (fun members row => groupRow plan members = .ok row)
        (classesBy (keyOf plan.transform.group) records) rows ∧
      ∀ maxRows, plan.rows maxRows records =
        if maxRows < (classesBy (keyOf plan.transform.group) records).length then
          .error (.tooLarge (classesBy (keyOf plan.transform.group) records).length maxRows)
        else .ok rows := by
  have hgroups := groupsOf_eq fun record hrecord field hfield =>
    (hgrouped.group_kind field hfield).trans (hkind record hrecord).symm
  have hrows : ∃ rows,
      (classesBy (keyOf plan.transform.group) records).mapM (groupRow plan) = .ok rows := by
    refine Answer.exists_mapM fun members hmembers => ?_
    obtain ⟨hfilled, hsub⟩ := mem_of_groupsOf hgroups hmembers
    exact hproper.exists_groupRow hgrouped hfilled fun member hmember =>
      hkind member (hsub member hmember)
  obtain ⟨rows, hrows⟩ := hrows
  refine ⟨rows, Answer.mapM_eq_ok_iff.1 hrows, fun maxRows => ?_⟩
  rw [Plan.rows_of_grouped hgrouped.isGrouped maxRows hgroups, hrows]
  rfl

/-- Over records of its kind a plan makes its rows, unless there are too many. -/
theorem rows_cases (maxRows : Nat) (hkind : ∀ record ∈ records, record.kind = plan.kind) :
    (∃ rows, plan.rows maxRows records = .ok rows) ∨
      ∃ count, plan.rows maxRows records = .error (.tooLarge count maxRows) := by
  rcases hproper.transform with hplain | hgrouped
  · have hrows : ∃ rows, records.mapM (recordRow plan) = .ok rows :=
      Answer.exists_mapM fun record hrecord => hproper.exists_recordRow hplain (hkind record hrecord)
    obtain ⟨rows, hrows⟩ := hrows
    rw [Plan.rows_of_plain hplain, hrows]
    split
    · exact .inr ⟨_, rfl⟩
    · exact .inl ⟨rows, rfl⟩
  · obtain ⟨rows, -, hrows⟩ := hproper.exists_rows hgrouped hkind
    rw [hrows]
    split
    · exact .inr ⟨_, rfl⟩
    · exact .inl ⟨rows, rfl⟩

end Plan.Proper

end CampusQuery.Query
