import CampusQuery.Proofs.Query.Documents

/-!
# Which records a query matches

The value of `WHERE` says of every record whether it is kept, by recursion on
what is written. A plan keeps exactly these records, in the order of the dataset.
-/

namespace CampusQuery.Query

variable {registry : Registry} {bound : Bound} {document : Json} {found : Plan}

/-- Which records the value of `WHERE` keeps: all of them for the empty object, otherwise those
that its condition is true of. -/
inductive WhereMeans (bound : Bound) : Json → (Record → Bool) → Prop where
  | everything : WhereMeans bound (.object []) fun _ => true
  | condition {condition : Condition} {json : Json} : condition.WrittenBy bound json →
      WhereMeans bound json fun record => condition.holds record

/-- A written condition keeps one set of records, since it is read as one filter. -/
theorem WhereMeans.unique {json : Json} {keeps others : Record → Bool}
    (hkeeps : WhereMeans bound json keeps) (hothers : WhereMeans bound json others) :
    keeps = others := by
  have hread : ∀ {condition : Condition}, condition.WrittenBy bound json →
      (filterNodes (fun _ => none) 1 [json]).run (some bound) =
        .ok (condition.tree.nodes, some bound) := by
    intro condition hwritten
    exact Condition.filterNodes_run_some_eq_ok_iff.2 ⟨⟨[condition], .cons hwritten .nil, rfl⟩, rfl⟩
  cases hkeeps with
  | everything =>
      cases hothers with
      | everything => rfl
      | condition hwritten => exact nomatch hwritten.eq_object
  | condition hfirst =>
      cases hothers with
      | everything => exact nomatch hfirst.eq_object
      | condition hsecond =>
          have hsame := (hread hfirst).symm.trans (hread hsecond)
          simp only [Except.ok.injEq, Prod.mk.injEq, and_true] at hsame
          funext record
          rw [← Condition.holds_tree, ← Condition.holds_tree, FilterTree.holds, hsame]
          rfl

/-! ## Running plans -/

theorem Plan.runOn_eq_ok_iff {plan : Plan} {maxRows : Nat} {records : List Record}
    {output : Output} :
    plan.runOn maxRows records = .ok output ↔
      plan.checkKind records = .ok () ∧
        ∃ rows, plan.rows maxRows (plan.matching records) = .ok rows ∧
          output = ⟨plan.arrange rows, records.length, (plan.matching records).length⟩ := by
  simp only [Plan.runOn, Answer.bind_eq_ok_iff]
  constructor
  · intro hrun
    obtain ⟨_, hkind, rows, hrows, hend⟩ := hrun
    cases hend
    exact ⟨hkind, rows, hrows, rfl⟩
  · intro hrun
    obtain ⟨hkind, rows, hrows, rfl⟩ := hrun
    exact ⟨(), hkind, rows, hrows, rfl⟩

theorem Plan.run_eq_ok_iff {plan : Plan} {maxRows : Nat} {store : Store} {output : Output} :
    plan.run maxRows store = .ok output ↔
      ∃ records, store.recordsOf? plan.datasetId = some records ∧
        plan.runOn maxRows records = .ok output := by
  unfold Plan.run
  cases store.recordsOf? plan.datasetId <;> simp

/-- A plan keeps a set of records: its filter says so of each record, and its runs make their rows
from the records of the set, in order, and count them. -/
structure Plan.Keeps (plan : Plan) (keeps : Record → Bool) : Prop where
  filter_holds : ∀ tree, plan.filter = some tree → ∀ record, tree.holds record = keeps record
  matching_eq : ∀ records, plan.matching records = records.filter keeps
  run_eq : ∀ maxRows store output, plan.run maxRows store = .ok output →
    ∃ records rows, store.recordsOf? plan.datasetId = some records ∧
      plan.rows maxRows (records.filter keeps) = .ok rows ∧
      output = ⟨plan.arrange rows, records.length, (records.filter keeps).length⟩

theorem Plan.keeps_of_matching {plan : Plan} {keeps : Record → Bool}
    (hfilter : ∀ tree, plan.filter = some tree → ∀ record, tree.holds record = keeps record)
    (hmatching : ∀ records, plan.matching records = records.filter keeps) : plan.Keeps keeps where
  filter_holds := hfilter
  matching_eq := hmatching
  run_eq maxRows store output hrun := by
    obtain ⟨records, hrecords, hon⟩ := Plan.run_eq_ok_iff.1 hrun
    obtain ⟨-, rows, hrows, houtput⟩ := Plan.runOn_eq_ok_iff.1 hon
    rw [hmatching] at hrows houtput
    exact ⟨records, rows, hrecords, hrows, houtput⟩

/-- A plan with a written filter keeps what the written value keeps. -/
theorem FilterWrittenBy.exists_keeps {plan : Plan} {json : Json}
    (hwritten : FilterWrittenBy bound plan.filter json) :
    (plan.filter = none ↔ json = .object []) ∧ ∃ keeps, WhereMeans bound json keeps ∧
      plan.Keeps keeps := by
  generalize hfilter : plan.filter = filter at hwritten
  cases hwritten with
  | everything =>
      refine ⟨by simp, _, .everything, Plan.keeps_of_matching ?_ ?_⟩
      · intro tree htree
        exact nomatch hfilter.symm.trans htree
      · intro records
        rw [Plan.matching, hfilter]
        exact (List.filter_eq_self.2 fun _ _ => rfl).symm
  | @condition condition json hcondition =>
      refine ⟨?_, _, .condition hcondition, Plan.keeps_of_matching ?_ ?_⟩
      · obtain ⟨entry, rfl⟩ := hcondition.eq_object
        simp
      · intro tree htree record
        rw [← Option.some.inj (hfilter.symm.trans htree), Condition.holds_tree]
      · intro records
        rw [Plan.matching, hfilter]
        exact List.filter_congr fun record _ => condition.holds_tree record

theorem Plan.WrittenBy.exists_where (hwritten : found.WrittenBy bound document) :
    ∃ json rest, document = .object (("WHERE", json) :: rest) ∧
      FilterWrittenBy bound found.filter json ∧ ⟨found.datasetId, found.kind⟩ = bound := by
  cases hwritten with
  | plain hfilter => exact ⟨_, _, rfl, hfilter, rfl⟩
  | transformed hfilter => exact ⟨_, _, rfl, hfilter, rfl⟩

/-- The plan of a document keeps exactly the records that its `WHERE` is true of. -/
theorem plan_keeps_where (hplan : plan registry document = .ok found) :
    ∃ json rest, document = .object (("WHERE", json) :: rest) ∧
      (found.filter = none ↔ json = .object []) ∧
      (∃ keeps, WhereMeans ⟨found.datasetId, found.kind⟩ json keeps) ∧
      ∀ keeps, WhereMeans ⟨found.datasetId, found.kind⟩ json keeps → found.Keeps keeps := by
  obtain ⟨bound, -, hwritten⟩ := Plan.ofDocument_eq_ok_iff.1 (plan_eq_ok_iff.1 hplan)
  obtain ⟨json, rest, rfl, hfilter, rfl⟩ := hwritten.exists_where
  obtain ⟨hnone, keeps, hmeans, hkeeps⟩ := hfilter.exists_keeps
  refine ⟨json, rest, rfl, hnone, ⟨keeps, hmeans⟩, ?_⟩
  intro others hothers
  rwa [hothers.unique hmeans]

/-- The registry that knows one dataset. -/
def soleDataset (datasetId : String) (kind : Kind) : Registry :=
  fun id => if id = datasetId then some kind else none

theorem columnsWrittenBy_department :
    ColumnsWrittenBy ⟨"courses", .sections⟩ none [⟨"courses_dept", .field (.section .dept)⟩]
      (.array [.string "courses_dept"]) := by
  have hdept : Bound.Refers ⟨"courses", .sections⟩ "courses_dept" (.section .dept) :=
    ⟨rfl, by decide, by decide, by decide⟩
  exact ⟨rfl, by simp, by simpa using .reference hdept, by simp, by simp⟩

/-- A query keeps the sections whose average is above a bound, and no others. -/
theorem keeps_sections_above :
    ∃ found keeps, plan (soleDataset "courses" .sections)
      (.object [
        ("WHERE", .object [("GT", .object [("courses_avg", .number (.integer 90))])]),
        ("OPTIONS", .object [("COLUMNS", .array [.string "courses_dept"])])]) = .ok found ∧
      found.Keeps keeps ∧
      ∀ record x, record.get? (.section .avg) = some (.number x) → x.isFinite = true →
        (keeps record = true ↔ 90 * 2 ^ 1074 < x.valueUnits) := by
  have havg : Bound.Refers ⟨"courses", .sections⟩ "courses_avg" (.section .avg) :=
    ⟨rfl, by decide, by decide, by decide⟩
  have hwhere : Condition.WrittenBy ⟨"courses", .sections⟩
      (.compare .greater (.section .avg) (JsonNumber.integer 90).toBinary64)
      (.object [("GT", .object [("courses_avg", .number (.integer 90))])]) :=
    .compare havg rfl
  have hwritten := Plan.WrittenBy.plain (.condition hwhere)
    (.unordered columnsWrittenBy_department)
  have hregistered : soleDataset "courses" .sections "courses" = some .sections := rfl
  have hplan := plan_eq_ok_iff.2 (Plan.ofDocument_eq_ok_iff.2 ⟨_, hregistered, hwritten⟩)
  obtain ⟨json, rest, hdocument, -, -, hkeeps⟩ := plan_keeps_where hplan
  cases hdocument
  have hninety : (JsonNumber.integer 90).toBinary64.valueUnits = 90 * 2 ^ 1074 := by
    decide +kernel
  refine ⟨_, _, hplan, hkeeps _ (.condition hwhere), fun record x hget hx => ?_⟩
  rw [← hninety]
  exact Condition.holds_compare_iff_valueUnits hget hx (by decide +kernel) .greater

end CampusQuery.Query
