import CampusQuery.Dataset.Reachable
import CampusQuery.Proofs.Query.Matching
import CampusQuery.Proofs.Query.Rows

/-!
# How runs end

A plan made from a document is proper, and a store that operations built holds
datasets of one kind with at least one record. Together they leave a run only
the ends that a caller is told of.
-/

namespace CampusQuery.Query

variable {registry : Registry} {bound : Bound} {document : Json} {found : Plan}

/-! ## Plans made from documents -/

theorem OptionsWrittenBy.exists_columns {transform : Option Transform} {columns : List Column}
    {order : Option OrderSpec} {json : Json}
    (hwritten : OptionsWrittenBy bound transform columns order json) :
    ∃ written, ColumnsWrittenBy bound transform columns written := by
  cases hwritten with
  | unordered hcolumns => exact ⟨_, hcolumns⟩
  | ordered hcolumns => exact ⟨_, hcolumns⟩

theorem ColumnsWrittenBy.field_kind {transform : Option Transform} {columns : List Column}
    {json : Json} (hcolumns : ColumnsWrittenBy bound transform columns json)
    (hproper : ∀ known ∈ transform, known.Proper bound.kind) {column : Column}
    (hcolumn : column ∈ columns) {field : Field} (hsource : column.source = .field field) :
    field.kind = bound.kind := by
  have hnamed := hcolumns.named column hcolumn
  rw [hsource] at hnamed
  -- a field column is a reference or a group field, and both are of the bound kind
  generalize column.name = name at hnamed
  cases hnamed with
  | reference hrefers => exact hrefers.of_kind
  | grouped hknown hfield => exact (hproper _ hknown).group_kind _ hfield

theorem ColumnsWrittenBy.apply_known {transform : Option Transform} {columns : List Column}
    {json : Json} (hcolumns : ColumnsWrittenBy bound transform columns json) {column : Column}
    (hcolumn : column ∈ columns) {name : String} (hsource : column.source = .apply name) :
    ∃ known ∈ transform, name ∈ known.apply.map ApplyRule.name := by
  have hnamed := hcolumns.named column hcolumn
  rw [hsource] at hnamed
  generalize column.name = named at hnamed
  cases hnamed with
  | applied hknown hrule => exact ⟨_, hknown, List.mem_map_of_mem hrule⟩

theorem Plan.WrittenBy.proper (hwritten : found.WrittenBy bound document) : found.Proper := by
  cases hwritten with
  | plain _ hoptions =>
      obtain ⟨_, hcolumns⟩ := hoptions.exists_columns
      refine ⟨fun column hcolumn field => hcolumns.field_kind (by simp) hcolumn, ?_, ?_,
        hcolumns.distinct_names, .inl rfl⟩
      · intro column hcolumn name hsource
        obtain ⟨known, hknown, -⟩ := hcolumns.apply_known hcolumn hsource
        exact nomatch hknown
      · intro source hmem
        exact absurd hmem List.not_mem_nil
  | @transformed _ transform _ _ _ _ _ _ htransform hoptions hsame =>
      obtain ⟨_, hcolumns⟩ := hoptions.exists_columns
      have hproper : ∀ known ∈ some transform, known.Proper bound.kind := by
        simpa using htransform.proper
      refine ⟨fun column hcolumn field => hcolumns.field_kind hproper hcolumn, ?_,
        fun source => (hsame source).2, hcolumns.distinct_names, .inr htransform.proper⟩
      intro column hcolumn name hsource
      obtain ⟨known, hknown, hname⟩ := hcolumns.apply_known hcolumn hsource
      cases hknown
      exact hname

theorem proper_of_plan (hplan : plan registry document = .ok found) : found.Proper := by
  obtain ⟨_, -, hwritten⟩ := Plan.ofDocument_eq_ok_iff.1 (plan_eq_ok_iff.1 hplan)
  exact hwritten.proper

/-- The registry knows the dataset of an accepted document by the plan's kind. -/
theorem registered_of_plan (hplan : plan registry document = .ok found) :
    registry found.datasetId = some found.kind := by
  obtain ⟨bound, hregistered, hwritten⟩ := Plan.ofDocument_eq_ok_iff.1 (plan_eq_ok_iff.1 hplan)
  obtain ⟨_, _, -, -, rfl⟩ := hwritten.exists_where
  exact hregistered

/-! ## Runs on a store -/

section Store

variable {store : Store} {dataset : Dataset}

theorem Plan.run_of_missing (plan : Plan) (maxRows : Nat)
    (hmissing : store.get? plan.datasetId = none) :
    plan.run maxRows store = .error (.datasetNotFound plan.datasetId) := by
  unfold Plan.run Store.recordsOf?
  rw [hmissing]
  rfl

theorem Plan.run_of_present (plan : Plan) (maxRows : Nat)
    (hdataset : store.get? plan.datasetId = some dataset) :
    plan.run maxRows store = plan.runOn maxRows dataset.records := by
  unfold Plan.run Store.recordsOf?
  rw [hdataset]
  rfl

theorem Plan.runOn_of_wrongKind (plan : Plan) (maxRows : Nat) (hdataset : dataset.WellFormed)
    (hfilled : dataset.records ≠ []) (hkind : dataset.kind ≠ plan.kind) :
    plan.runOn maxRows dataset.records =
      .error (.execution
        (ExecutionFault.wrongKind plan.datasetId dataset.kind plan.kind).message) := by
  obtain ⟨first, rest, hrecords⟩ := List.exists_cons_of_ne_nil hfilled
  have hfirst : first.kind = dataset.kind :=
    hdataset.of_kind first (hrecords ▸ List.mem_cons_self)
  have hcheck : plan.checkKind dataset.records = .error (.execution
      (ExecutionFault.wrongKind plan.datasetId dataset.kind plan.kind).message) := by
    rw [hrecords, Plan.checkKind, hfirst, if_neg hkind]
    rfl
  unfold Plan.runOn
  rw [hcheck]
  rfl

theorem Plan.checkKind_eq_ok {plan : Plan} {records : List Record}
    (hkind : ∀ record ∈ records, record.kind = plan.kind) : plan.checkKind records = .ok () := by
  unfold Plan.checkKind
  split
  next => rfl
  next first rest => rw [if_pos (hkind first List.mem_cons_self)]

theorem Plan.kind_eq_of_checkKind {plan : Plan} {first : Record} {rest : List Record}
    (hcheck : plan.checkKind (first :: rest) = .ok ()) : first.kind = plan.kind := by
  unfold Plan.checkKind at hcheck
  dsimp only at hcheck
  split at hcheck
  next hkind => exact hkind
  next => exact nomatch hcheck

/-- The check looks only at the first record, but the records of a dataset are of one kind. -/
theorem Plan.kind_of_checkKind {plan : Plan} (hdataset : dataset.WellFormed)
    (hcheck : plan.checkKind dataset.records = .ok ()) :
    ∀ record ∈ dataset.records, record.kind = plan.kind := by
  intro record hrecord
  obtain ⟨first, rest, hall⟩ := List.exists_cons_of_ne_nil (List.ne_nil_of_mem hrecord)
  rw [hdataset.of_kind record hrecord,
    ← hdataset.of_kind first (hall ▸ List.mem_cons_self)]
  exact Plan.kind_eq_of_checkKind (hall ▸ hcheck)

theorem Plan.matching_sublist (plan : Plan) (records : List Record) :
    (plan.matching records).Sublist records := by
  unfold Plan.matching
  split
  · exact List.Sublist.refl _
  · exact List.filter_sublist

theorem Plan.matching_perm (plan : Plan) {moved records : List Record}
    (hperm : moved.Perm records) :
    (plan.matching moved).Perm (plan.matching records) := by
  unfold matching
  split
  · exact hperm
  · exact hperm.filter _

theorem Plan.mem_of_mem_matching {plan : Plan} {records : List Record} {record : Record}
    (hrecord : record ∈ plan.matching records) : record ∈ records :=
  (plan.matching_sublist records).subset hrecord

/-- On records of its kind a proper plan has an answer, unless that has too many rows. -/
theorem Plan.Proper.runOn_cases {plan : Plan} (hproper : plan.Proper) (maxRows : Nat)
    {records : List Record} (hkind : ∀ record ∈ records, record.kind = plan.kind) :
    (∃ output, plan.runOn maxRows records = .ok output) ∨
      ∃ count, plan.runOn maxRows records = .error (.tooLarge count maxRows) := by
  have hmatching : ∀ record ∈ plan.matching records, record.kind = plan.kind :=
    fun record hrecord => hkind record (Plan.mem_of_mem_matching hrecord)
  unfold Plan.runOn
  rw [Plan.checkKind_eq_ok hkind]
  rcases hproper.rows_cases maxRows hmatching with ⟨rows, hrows⟩ | ⟨count, hcount⟩
  · exact .inl ⟨⟨plan.arrange rows, records.length, _⟩, by dsimp only; rw [hrows]; rfl⟩
  · exact .inr ⟨count, by dsimp only; rw [hcount]; rfl⟩

/-- How a run ends: it says that there is no dataset exactly if there is none, and that the
dataset has the wrong kind exactly if it has. Otherwise it has an answer or too many rows. -/
structure Plan.Ends (plan : Plan) (maxRows : Nat) (store : Store) : Prop where
  not_found : plan.run maxRows store = .error (.datasetNotFound plan.datasetId) ↔
    plan.datasetId ∉ store.ids
  wrong_kind : ∀ reason, plan.run maxRows store = .error (.execution reason) ↔
    ∃ dataset, store.get? plan.datasetId = some dataset ∧ dataset.kind ≠ plan.kind ∧
      reason = (ExecutionFault.wrongKind plan.datasetId dataset.kind plan.kind).message
  answered : (∃ dataset, store.get? plan.datasetId = some dataset ∧ dataset.kind = plan.kind) ↔
    (∃ output, plan.run maxRows store = .ok output) ∨
      ∃ count, plan.run maxRows store = .error (.tooLarge count maxRows)

theorem Plan.Proper.run_cases {plan : Plan} (hproper : plan.Proper) (maxRows : Nat)
    (hstore : store.WellFormed) (hdataset : store.get? plan.datasetId = some dataset)
    (hkind : dataset.kind = plan.kind) :
    (∃ output, plan.run maxRows store = .ok output) ∨
      ∃ count, plan.run maxRows store = .error (.tooLarge count maxRows) := by
  rw [plan.run_of_present maxRows hdataset]
  obtain ⟨hmem, -⟩ := Store.mem_of_get? hdataset
  exact hproper.runOn_cases maxRows fun record hrecord =>
    ((hstore.well_formed dataset hmem).of_kind record hrecord).trans hkind

theorem Plan.Proper.ends {plan : Plan} (hproper : plan.Proper) (maxRows : Nat)
    (hstore : store.WellFormed) : plan.Ends maxRows store := by
  -- no dataset, one of the kind, one of the other kind: each has its own end
  cases hget : store.get? plan.datasetId with
  | none =>
      have hrun := plan.run_of_missing maxRows hget
      have hid : plan.datasetId ∉ store.ids := by
        rw [← Store.get?_isSome_iff, hget]
        simp
      exact ⟨by simp [hrun, hid], by simp [hrun, hget], by simp [hrun, hget]⟩
  | some dataset =>
      have hid : plan.datasetId ∈ store.ids := by
        rw [← Store.get?_isSome_iff, hget]
        rfl
      by_cases hkind : dataset.kind = plan.kind
      · rcases hproper.run_cases maxRows hstore hget hkind with ⟨output, hrun⟩ | ⟨count, hrun⟩
        · exact ⟨by simp [hrun, hid], by simp [hrun, hget, hkind], by simp [hrun, hget, hkind]⟩
        · exact ⟨by simp [hrun, hid], by simp [hrun, hget, hkind], by simp [hrun, hget, hkind]⟩
      · obtain ⟨hmem, -⟩ := Store.mem_of_get? hget
        have hrun : plan.run maxRows store = _ := (plan.run_of_present maxRows hget).trans
          (plan.runOn_of_wrongKind maxRows (hstore.well_formed dataset hmem)
            (hstore.inhabited dataset hmem) hkind)
        refine ⟨by simp [hrun, hid], fun reason => ?_, by simp [hrun, hget, hkind]⟩
        simp only [hrun, hget, Except.error.injEq, QueryError.execution.injEq, Option.some.injEq,
          exists_eq_left']
        exact ⟨fun hreason => ⟨hkind, hreason.symm⟩, fun hreason => hreason.2.symm⟩

theorem Plan.run_error_cases {plan : Plan} (hproper : plan.Proper) (hstore : store.WellFormed)
    (hregistered : store.registry plan.datasetId = some plan.kind) {maxRows : Nat}
    {error : QueryError} (hrun : plan.run maxRows store = .error error) :
    ∃ count, error = .tooLarge count maxRows := by
  -- the plan was made for this store's dataset, so neither its absence nor its kind is an end
  obtain ⟨dataset, hdataset, hkind⟩ := Option.map_eq_some_iff.1 hregistered
  rcases hproper.run_cases maxRows hstore hdataset hkind with ⟨output, hok⟩ | ⟨count, herror⟩
  · exact nomatch hok.symm.trans hrun
  · exact ⟨count, Except.error.inj (hrun.symm.trans herror)⟩

/-- Checking and running on one store fails only for an invalid query or too many rows. -/
theorem run_error_cases (hstore : store.WellFormed) {maxRows : Nat} {document : Json}
    {error : QueryError} (hrun : run maxRows store document = .error error) :
    (∃ reason, error = .invalid reason) ∨ ∃ count, error = .tooLarge count maxRows := by
  unfold run at hrun
  cases hplan : plan store.registry document with
  | error refusal =>
      rw [hplan] at hrun
      cases hrun
      unfold plan at hplan
      cases hfound : Plan.ofDocument store.registry document with
      | error violation =>
          rw [hfound] at hplan
          cases hplan
          exact .inl ⟨_, rfl⟩
      | ok found =>
          rw [hfound] at hplan
          cases hplan
  | ok found =>
      rw [hplan] at hrun
      exact .inr (Plan.run_error_cases (proper_of_plan hplan) hstore (registered_of_plan hplan) hrun)

theorem runText_error_cases (hstore : store.WellFormed) {maxRows : Nat} {text : String}
    {error : QueryError} (hrun : runText maxRows store text = .error error) :
    (∃ reason, error = .invalid reason) ∨ ∃ count, error = .tooLarge count maxRows := by
  unfold runText planText at hrun
  cases hread : Json.read? text with
  | none =>
      rw [hread] at hrun
      cases hrun
      exact .inl ⟨_, rfl⟩
  | some document =>
      rw [hread] at hrun
      exact run_error_cases hstore hrun

/-- On every store that operations built, a plan of an accepted document ends as its caller is
told, and checking and running on that same store never breaks down. -/
theorem run_ends_properly (hstore : store.Reachable) (maxRows : Nat) :
    (∀ registry document found, plan registry document = .ok found → found.Ends maxRows store) ∧
      (∀ document error, run maxRows store document = .error error →
        (∃ reason, error = .invalid reason) ∨ ∃ count, error = .tooLarge count maxRows) ∧
      ∀ text error, runText maxRows store text = .error error →
        (∃ reason, error = .invalid reason) ∨ ∃ count, error = .tooLarge count maxRows := by
  refine ⟨?_, ?_, ?_⟩
  · intro registry document found hplan
    exact (proper_of_plan hplan).ends maxRows hstore.wellFormed
  · intro document error hrun
    exact run_error_cases hstore.wellFormed hrun
  · intro text error hrun
    exact runText_error_cases hstore.wellFormed hrun

end Store

/-- A section of one department with a given average. -/
def sectionOf (average : Numeric.Binary64) : Record :=
  .section {
    uuid := "1"
    id := "310"
    title := "intro"
    instructor := "smith"
    dept := "cpsc"
    year := .ofNat 2015
    avg := average
    pass := .ofNat 10
    fail := .ofNat 1
    audit := .ofNat 0 }

theorem refers_average :
    Bound.Refers ⟨"courses", .sections⟩ "courses_avg" (.section .avg) :=
  ⟨rfl, by decide, by decide, by decide⟩

/-- The store of one dataset, which holds sections with given averages. -/
def storeOf (averages : List Numeric.Binary64) : Store :=
  ⟨[⟨"courses", .sections, averages.map sectionOf⟩]⟩

theorem reachable_storeOf {averages : List Numeric.Binary64} (hfilled : averages ≠ [])
    (hfinite : ∀ average ∈ averages, average.isFinite = true) : (storeOf averages).Reachable := by
  have hwell : Dataset.WellFormed ⟨"courses", .sections, averages.map sectionOf⟩ := by
    have hid : isValidId "courses" = true := by decide +kernel
    refine ⟨hid, ?_, ?_⟩
    · intro record hrecord
      obtain ⟨average, -, rfl⟩ := List.mem_map.1 hrecord
      rfl
    · intro record hrecord
      obtain ⟨average, haverage, rfl⟩ := List.mem_map.1 hrecord
      have hothers : (Numeric.Binary64.ofNat 10).isFinite = true ∧
          (Numeric.Binary64.ofNat 1).isFinite = true ∧
          (Numeric.Binary64.ofNat 0).isFinite = true ∧
          (Numeric.Binary64.ofNat 2015).isFinite = true := by decide +kernel
      have hfields : Kind.sections.numericFields =
          [.section .avg, .section .pass, .section .fail, .section .audit, .section .year] := rfl
      simp [Record.hasFiniteNumbers, sectionOf, Record.kind, hfields, Record.get?, Section.get,
        hothers, hfinite average haverage]
  have hadd : Store.empty.add ⟨"courses", .sections, averages.map sectionOf⟩ =
      .ok (storeOf averages) :=
    Store.add_eq_ok_iff.2 ⟨by simp [Store.empty, Store.ids], by simpa using hfilled, rfl⟩
  exact .add .empty (Dataset.create_eq_ok_iff.2 ⟨rfl, hwell⟩) hadd

theorem reachable_storeOf_singleton {average : Numeric.Binary64}
    (hfinite : average.isFinite = true) : (storeOf [average]).Reachable :=
  reachable_storeOf (List.cons_ne_nil _ _) fun _ hmem => List.mem_singleton.1 hmem ▸ hfinite

/-- A query for the department of every section. -/
def departments : Json :=
  .object [("WHERE", .object []),
    ("OPTIONS", .object [("COLUMNS", .array [.string "courses_dept"])])]

theorem storeOf_ends_properly :
    (storeOf [.ofNat 90]).Reachable ∧
      (∃ found, plan (storeOf [.ofNat 90]).registry departments = .ok found ∧
        found.Ends 10 (storeOf [.ofNat 90])) ∧
      ∀ document error, run 10 (storeOf [.ofNat 90]) document = .error error →
        (∃ reason, error = .invalid reason) ∨ ∃ count, error = .tooLarge count 10 := by
  have hstore : (storeOf [.ofNat 90]).Reachable := by
    refine reachable_storeOf (by simp) fun average haverage => ?_
    rw [List.mem_singleton.1 haverage]
    decide +kernel
  have hquery : IsQuery (storeOf [.ofNat 90]).registry departments :=
    ⟨⟨"courses", .sections⟩, rfl, _, .plain .everything (.unordered columnsWrittenBy_department)⟩
  obtain ⟨found, hplan⟩ := exists_plan_iff.2 hquery
  have hends := run_ends_properly hstore 10
  exact ⟨hstore, ⟨_, hplan, hends.1 _ _ _ hplan⟩, hends.2.1⟩

end CampusQuery.Query
