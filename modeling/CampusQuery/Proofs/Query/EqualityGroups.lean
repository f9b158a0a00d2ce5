import CampusQuery.Proofs.Query.RowCap
import CampusQuery.Proofs.Query.Splitting

/-!
# Groups and the filter for equality

Groups are told apart by keys and the filter for equality compares numbers, but both take the two
zeros for one number and no others. Grouped by a numeric field, the records of a dataset are
therefore divided into what the filter selects for the numbers that the rows show.
-/

namespace CampusQuery.Query

open Numeric

/-! ## Keys and equality -/

theorem KeyPart.ofValue_number_eq_iff {a b : Binary64} (ha : a.isFinite = true)
    (hb : b.isFinite = true) :
    ofValue (.number a) = ofValue (.number b) ↔ CompareOp.equal.holds a b = true :=
  @KeyPart.ofValue_eq_iff (.number a) (.number b) ha hb

theorem KeyPart.ofValue_text_ne_number (s : String) (a : Binary64) :
    ofValue (.text s) ≠ ofValue (.number a) := by
  intro hsame
  cases hsame

section Keys

variable {dataset : Dataset} {f : Field}

theorem kind_of_mem_singleton (hdataset : dataset.WellFormed) (hkind : f.kind = dataset.kind) :
    ∀ record ∈ dataset.records, ∀ field ∈ [f], field.kind = record.kind := by
  intro record hrecord field hfield
  rw [List.mem_singleton.1 hfield, hkind, hdataset.of_kind record hrecord]

/-- Records have one key in a numeric field exactly if the filter for equality with the number of
the one is true of the other. -/
theorem keyOf_eq_iff_holds (hdataset : dataset.WellFormed) (hkind : f.kind = dataset.kind)
    (htype : f.fieldType = .numeric) {a b : Record} (ha : a ∈ dataset.records)
    (hb : b ∈ dataset.records) {v : Binary64} (hv : b.get? f = some (.number v)) :
    keyOf [f] a = keyOf [f] b ↔ (Condition.compare .equal f v).holds a = true := by
  have hfields := kind_of_mem_singleton hdataset hkind
  have hfinite : ∀ record ∈ dataset.records, ∀ x, record.get? f = some (.number x) →
      x.isFinite = true := fun record hrecord =>
    Record.hasFiniteNumbers_iff.1 (hdataset.finite record hrecord) f
  obtain ⟨x, hx, -⟩ := exists_number_of_mem hdataset hkind htype ha
  rw [keyOf_eq_iff (hfields a ha) (hfields b hb), List.forall_mem_singleton, hx, hv,
    Option.map_some, Option.map_some, Option.some.injEq,
    KeyPart.ofValue_number_eq_iff (hfinite a ha x hx) (hfinite b hb v hv), Condition.holds, hx,
    CompareOp.holds_eq_lies]

/-- A class is what the filter for equality with the number of any of its members is true of. -/
theorem eq_filter_holds_of_mem_classesBy (hdataset : dataset.WellFormed)
    (hkind : f.kind = dataset.kind) (htype : f.fieldType = .numeric) {members : List Record}
    (hmembers : members ∈ classesBy (keyOf [f]) dataset.records) {member : Record}
    (hmember : member ∈ members) {v : Binary64} (hv : member.get? f = some (.number v)) :
    members = dataset.records.filter fun record => (Condition.compare .equal f v).holds record := by
  refine (eq_filter_of_mem_classesBy hmembers hmember).trans
    (List.filter_congr fun record hrecord => ?_)
  rw [Bool.eq_iff_iff, decide_eq_true_iff]
  exact keyOf_eq_iff_holds hdataset hkind htype hrecord (mem_of_mem_classesBy hmembers hmember) hv

end Keys

/-! ## Dividing a list by keys -/

theorem divides_classesBy {α κ : Type} [DecidableEq κ] (key : α → κ) (items : List α) :
    Divides items (classesBy key items) where
  in_order part hpart := by
    obtain ⟨item, -, rfl⟩ := mem_classesBy_iff.1 hpart
    exact List.filter_sublist
  disjoint := (pairwise_classesBy key items).imp fun hbefore item hearlier hlater =>
    Nat.lt_irrefl _ (hbefore item hearlier item hlater)
  complete := flatten_classesBy_perm key items

theorem Divides.perm {α : Type} {whole : List α} {parts moved : List (List α)}
    (hdivides : Divides whole parts) (hperm : moved.Perm parts) : Divides whole moved where
  in_order part hpart := hdivides.in_order part (hperm.mem_iff.1 hpart)
  disjoint := hperm.symm.pairwise hdivides.disjoint List.Disjoint.symm
  complete := hperm.flatten.trans hdivides.complete

theorem length_classesBy_le {α κ : Type} [DecidableEq κ] (key : α → κ) (items : List α) :
    (classesBy key items).length ≤ items.length := by
  rw [length_classesBy]
  exact (List.toFinset_card_le _).trans_eq (List.length_map key)

/-! ## Queries that group by one field -/

/-- A plan groups all records of a dataset by one field. -/
structure Plan.GroupsBy (plan : Plan) (dataset : Dataset) (f : Field) : Prop where
  grouped : plan.Grouped
  datasetId_eq : plan.datasetId = dataset.id
  kind_eq : plan.kind = dataset.kind
  filter_eq : plan.filter = none
  group_eq : plan.transform.group = [f]

variable {store : Store} {dataset : Dataset} {f : Field} {found : Plan}

theorem groupsBy_of_plan (hstore : store.WellFormed) (hmem : dataset ∈ store.datasets)
    {rest : List (String × Json)}
    (hplan : plan store.registry (.object (("WHERE", .object []) :: rest)) = .ok found)
    (hid : found.datasetId = dataset.id) (hgroup : found.transform.group = [f]) :
    found.GroupsBy dataset f where
  grouped := grouped_of_plan hplan
    ((transforms_iff_of_plan hplan).2 (hgroup ▸ List.cons_ne_nil f []))
  datasetId_eq := hid
  kind_eq := kind_eq_of_plan hstore hmem hplan hid
  filter_eq := by
    obtain ⟨json, _, hdocument, hnone, -⟩ := plan_keeps_where hplan
    cases hdocument
    exact hnone.2 rfl
  group_eq := hgroup

/-- Every dataset of a store can be grouped by every field of its kind. -/
theorem exists_plan_grouping (hstore : store.WellFormed) (hmem : dataset ∈ store.datasets)
    (hkind : f.kind = dataset.kind) :
    ∃ rest found, plan store.registry (.object (("WHERE", .object []) :: rest)) = .ok found ∧
      found.datasetId = dataset.id ∧ found.transform.group = [f] := by
  have hrefers : Bound.Refers ⟨dataset.id, dataset.kind⟩ (f.qualified dataset.id) f :=
    refers_qualified (hstore.well_formed dataset hmem).valid_id hkind
  have htransform : Transform.WrittenBy ⟨dataset.id, dataset.kind⟩ ⟨[f], []⟩
      (.object [("GROUP", .array [.string (f.qualified dataset.id)]), ("APPLY", .array [])]) :=
    @Transform.WrittenBy.groupApply _ [f.qualified dataset.id] _ _ _ (List.cons_ne_nil _ _)
      (.cons hrefers .nil) .nil List.nodup_nil nofun
  have hcolumns : ColumnsWrittenBy ⟨dataset.id, dataset.kind⟩ (some ⟨[f], []⟩)
      [fieldColumn dataset.id f] (.array [.string (f.qualified dataset.id)]) := {
    spelled := rfl
    ne_nil := List.cons_ne_nil _ _
    named := by
      intro column hcolumn
      rw [List.mem_singleton.1 hcolumn]
      exact .reference hrefers
    distinct_names := List.nodup_singleton _
    distinct_sources := List.nodup_singleton _ }
  have hplan := Plan.ofDocument_eq_ok_iff.2 ⟨⟨dataset.id, dataset.kind⟩,
    registry_of_mem hstore hmem, .transformed .everything htransform (.unordered hcolumns)
      (by intro source; rfl)⟩
  exact ⟨_, _, plan_eq_ok_iff.2 hplan, rfl, rfl⟩

/-! ## Rows and the filter for equality -/

/-- A row shows a number in the column of a field. -/
def Plan.ShowsNumber (plan : Plan) (f : Field) (row : Row) (v : Binary64) : Prop :=
  ∃ column ∈ plan.columns, column.source = .field f ∧ row.get? column.name = some (.number v)

/-- A row is made of a group and shows a number, and the filter for equality with that number
selects the group from the dataset, however the number is written. -/
structure Plan.RowOfEquals (plan : Plan) (store : Store) (dataset : Dataset) (f : Field)
    (row : Row) (members : List Record) : Prop where
  made : groupRow plan members = .ok row
  shown : ∃ v, plan.ShowsNumber f row v
  selected : ∀ v c, plan.ShowsNumber f row v → c.toBinary64 = v →
    Selects store dataset (compared .equal (f.qualified dataset.id) c) members

namespace Plan.GroupsBy

variable (hgroups : found.GroupsBy dataset f) (hstore : store.WellFormed)
  (hmem : dataset ∈ store.datasets)

include hgroups hstore hmem

/-- The rows of a run are those of the classes of one key. -/
theorem exists_rows :
    ∃ rows, List.Forall₂ (fun row members => groupRow found members = .ok row) rows
        (classesBy (keyOf [f]) dataset.records) ∧
      ∀ maxRows, found.run maxRows store =
        if maxRows < (classesBy (keyOf [f]) dataset.records).length then
          .error (.tooLarge (classesBy (keyOf [f]) dataset.records).length maxRows)
        else .ok ⟨found.arrange rows, dataset.records.length, dataset.records.length⟩ := by
  have hkind : ∀ record ∈ dataset.records, record.kind = found.kind := fun record hrecord =>
    ((hstore.well_formed dataset hmem).of_kind record hrecord).trans hgroups.kind_eq.symm
  have hmatching : found.matching dataset.records = dataset.records := by
    rw [Plan.matching, hgroups.filter_eq]
  have hrecords : store.recordsOf? found.datasetId = some dataset.records := by
    rw [hgroups.datasetId_eq, Store.recordsOf?, hstore.get?_eq_some_iff.2 ⟨hmem, rfl⟩]
    rfl
  obtain ⟨rows, hall, hrows⟩ := hgroups.grouped.proper.exists_rows hgroups.grouped.transform hkind
  rw [hgroups.group_eq] at hall hrows
  refine ⟨rows, hall.flip, fun maxRows => ?_⟩
  rw [found.run_of_checked maxRows hrecords (Plan.checkKind_eq_ok hkind), hmatching, hrows maxRows]
  split <;> rfl

theorem rowOfEquals (htype : f.fieldType = .numeric) {members : List Record} {row : Row}
    (hmembers : members ∈ classesBy (keyOf [f]) dataset.records)
    (hrow : groupRow found members = .ok row) : found.RowOfEquals store dataset f row members := by
  have hdataset := hstore.well_formed dataset hmem
  have hfield : f ∈ found.transform.group := by
    rw [hgroups.group_eq]
    exact List.mem_singleton_self f
  have hkind : f.kind = dataset.kind :=
    (hgroups.grouped.transform.group_kind f hfield).trans hgroups.kind_eq
  obtain ⟨first, others, rfl⟩ := List.exists_cons_of_ne_nil (ne_nil_of_mem_classesBy hmembers)
  obtain ⟨x, hx, -⟩ := exists_number_of_mem hdataset hkind htype
    (mem_of_mem_classesBy hmembers List.mem_cons_self)
  -- a column of the field has the number of the first member
  have hcell : ∀ column ∈ found.columns, column.source = .field f →
      row.get? column.name = some (.number x) := by
    intro column hcolumn hsource
    obtain ⟨value, hvalue, hmakes⟩ :=
      (cells_of_groupRow hgroups.grouped.proper.distinct_names hrow).2 column hcolumn
    rw [hsource] at hmakes
    cases hmakes with
    | field hfirst hget =>
        cases hfirst
        cases hget.symm.trans hx
        exact hvalue
  refine ⟨hrow, ?_, ?_⟩
  · obtain ⟨column, hcolumn, hsource⟩ := List.mem_map.1
      ((hgroups.grouped.sources (.field f)).2 (List.mem_append_left _ (List.mem_map_of_mem hfield)))
    exact ⟨x, column, hcolumn, hsource, hcell column hcolumn hsource⟩
  · rintro v c ⟨column, hcolumn, hsource, hshown⟩ rfl
    cases hshown.symm.trans (hcell column hcolumn hsource)
    rw [eq_filter_holds_of_mem_classesBy hdataset hkind htype hmembers List.mem_cons_self hx]
    exact selects_of_writtenBy hstore hmem
      (.compare (@refers_qualified ⟨dataset.id, dataset.kind⟩ f hdataset.valid_id hkind) htype)

end Plan.GroupsBy

theorem Plan.arrange_perm (plan : Plan) (rows : List Row) : (plan.arrange rows).Perm rows := by
  unfold Plan.arrange
  split
  · exact .refl rows
  · exact List.mergeSort_perm rows _

/-- Values have one key exactly if they are equal texts or numbers that the filter for equality
takes for one. So when a dataset is grouped by a numeric field alone, the filter for equality with
the number of a row selects the group of that row, and these groups divide the dataset. -/
theorem groups_agree_with_equality :
    (∀ a b : Binary64, a.isFinite = true → b.isFinite = true →
      (KeyPart.ofValue (.number a) = KeyPart.ofValue (.number b) ↔
        CompareOp.equal.holds a b = true)) ∧
    (∀ s t : String, KeyPart.ofValue (.text s) = KeyPart.ofValue (.text t) ↔ s = t) ∧
    (∀ (s : String) (a : Binary64), KeyPart.ofValue (.text s) ≠ KeyPart.ofValue (.number a)) ∧
    ∀ (store : Store) (dataset : Dataset) (f : Field), store.Reachable →
      dataset ∈ store.datasets → f.kind = dataset.kind → f.fieldType = .numeric →
      (∃ rest found, plan store.registry (.object (("WHERE", .object []) :: rest)) = .ok found ∧
        found.datasetId = dataset.id ∧ found.transform.group = [f]) ∧
      ∀ rest found, plan store.registry (.object (("WHERE", .object []) :: rest)) = .ok found →
        found.datasetId = dataset.id → found.transform.group = [f] →
        (∀ maxRows, dataset.records.length ≤ maxRows →
          ∃ output, found.run maxRows store = .ok output) ∧
        ∀ maxRows output, found.run maxRows store = .ok output →
          ∃ made groups, groupsOf [f] dataset.records = .ok made ∧ groups.Perm made ∧
            Divides dataset.records groups ∧
            List.Forall₂ (found.RowOfEquals store dataset f) output.rows groups := by
  refine ⟨fun a b => KeyPart.ofValue_number_eq_iff, fun s t => ?_, KeyPart.ofValue_text_ne_number,
    ?_⟩
  · rw [KeyPart.ofValue, KeyPart.ofValue, KeyPart.text.injEq]
  intro store dataset f hstore hmem hkind htype
  have hwell := hstore.wellFormed
  refine ⟨exists_plan_grouping hwell hmem hkind, fun rest found hplan hid hgroup => ?_⟩
  have hgroups := groupsBy_of_plan hwell hmem hplan hid hgroup
  obtain ⟨rows, hrows, hruns⟩ := hgroups.exists_rows hwell hmem
  constructor
  · intro maxRows hcap
    exact ⟨_, (hruns maxRows).trans
      (if_neg (Nat.not_lt.2 ((length_classesBy_le _ _).trans hcap)))⟩
  · intro maxRows output hrun
    have hfields := kind_of_mem_singleton (hwell.well_formed dataset hmem) hkind
    obtain rfl : output = ⟨found.arrange rows, dataset.records.length, dataset.records.length⟩ := by
      rw [hruns maxRows] at hrun
      split at hrun
      · cases hrun
      · exact (Except.ok.inj hrun).symm
    -- the groups change places with their rows
    obtain ⟨groups, hmade, hperm⟩ := List.perm_comp_forall₂ (found.arrange_perm rows) hrows
    refine ⟨_, groups, groupsOf_eq hfields, hperm, (divides_classesBy _ _).perm hperm, ?_⟩
    have hclasses : ∀ members ∈ groups, members ∈ classesBy (keyOf [f]) dataset.records :=
      fun members => hperm.mem_iff.1
    exact (((List.forall₂_and_left _ _).2 ⟨hclasses, hmade.flip⟩).imp fun _ _ hboth =>
      hgroups.rowOfEquals hwell hmem htype hboth.1 hboth.2).flip

/-- The two zeros are one group, which the filter for equality with the zero of its row selects. -/
theorem zeros_are_selected_together :
    ∃ output groups,
      byAveragePlan.run 10 (storeOf [.ofNat 90, 0, .signedZero true]) = .ok output ∧
      groups.Perm [[sectionOf (.ofNat 90)], [sectionOf 0, sectionOf (.signedZero true)]] ∧
      Divides ([.ofNat 90, 0, .signedZero true].map sectionOf) groups ∧
      List.Forall₂ (byAveragePlan.RowOfEquals (storeOf [.ofNat 90, 0, .signedZero true])
        ⟨"courses", .sections, [.ofNat 90, 0, .signedZero true].map sectionOf⟩ (.section .avg))
        output.rows groups := by
  have hstore : (storeOf [.ofNat 90, 0, .signedZero true]).Reachable := by
    refine reachable_storeOf (List.cons_ne_nil _ _) ?_
    decide +kernel
  have hclasses : groupsOf [.section .avg] ([.ofNat 90, 0, .signedZero true].map sectionOf) =
      .ok [[sectionOf (.ofNat 90)], [sectionOf 0, sectionOf (.signedZero true)]] := by
    decide +kernel
  obtain ⟨hruns, hrows⟩ := (groups_agree_with_equality.2.2.2 _
    ⟨"courses", .sections, [.ofNat 90, 0, .signedZero true].map sectionOf⟩ (.section .avg) hstore
    List.mem_cons_self rfl rfl).2 _ _ (plan_byAverage _) rfl rfl
  obtain ⟨output, hrun⟩ := hruns 10 (by decide)
  obtain ⟨made, groups, hmade, hperm, hdivides, hall⟩ := hrows 10 output hrun
  cases hmade.symm.trans hclasses
  exact ⟨output, groups, hrun, hperm, hdivides, hall⟩

end CampusQuery.Query
