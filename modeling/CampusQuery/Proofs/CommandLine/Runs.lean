import CampusQuery.CommandLine.Run
import CampusQuery.Proofs.Query.RowCap

/-!
# Runs of queries on the command line

Rows that a run comes to are those of the query in its file. All of them have the columns that the
query asks for, in that order, and the run prints what its format makes of them.
-/

namespace CampusQuery

namespace Query

variable {registry : Registry} {document : Json} {found : Plan} {store : Store} {maxRows : Nat}
  {output : Output}

/-! ## The columns of rows -/

theorem Plan.columns_of_rows {plan : Plan} (hnodup : plan.columnNames.Nodup)
    {records : List Record} {rows : List Row} (hrows : plan.rows maxRows records = .ok rows) :
    ∀ row ∈ rows, row.columns = plan.columnNames := by
  intro row hrow
  unfold Plan.rows at hrows
  split at hrows
  · obtain ⟨groups, -, hchecked⟩ := Answer.bind_eq_ok_iff.1 hrows
    obtain ⟨_, -, hmade⟩ := Answer.bind_eq_ok_iff.1 hchecked
    have hall := Answer.mapM_eq_ok_iff.1 (orFault_eq_ok_iff.1 hmade)
    obtain ⟨members, -, hmembers⟩ := exists_of_mem_forall₂ hall.flip hrow
    exact (cells_of_groupRow hnodup hmembers).1
  · obtain ⟨_, -, hmade⟩ := Answer.bind_eq_ok_iff.1 hrows
    have hall := Answer.mapM_eq_ok_iff.1 (orFault_eq_ok_iff.1 hmade)
    obtain ⟨record, -, hrecord⟩ := exists_of_mem_forall₂ hall.flip hrow
    exact (cells_of_recordRow hnodup hrecord).1

theorem columnNames_ne_nil_of_plan (hplan : plan registry document = .ok found) :
    found.columnNames ≠ [] := by
  obtain ⟨_, -, hwritten⟩ := Plan.ofDocument_eq_ok_iff.1 (plan_eq_ok_iff.1 hplan)
  rw [Plan.columnNames, ne_eq, List.map_eq_nil_iff]
  cases hwritten with
  | plain _ hoptions => cases hoptions with
    | unordered hcolumns => exact hcolumns.ne_nil
    | ordered hcolumns => exact hcolumns.ne_nil
  | transformed _ _ hoptions _ => cases hoptions with
    | unordered hcolumns => exact hcolumns.ne_nil
    | ordered hcolumns => exact hcolumns.ne_nil

/-- Column names that a document lists, with which rows can be shown: there is one, and no two are
the same. -/
structure Heads (document : Json) (names : List String) (rows : List Row) : Prop where
  listed : ListsColumns document names
  ne_nil : names ≠ []
  nodup : names.Nodup
  columns_eq : ∀ row ∈ rows, row.columns = names

theorem exists_heads_of_run (hrun : run maxRows store document = .ok output) :
    ∃ names, Heads document names output.rows := by
  obtain ⟨found, hplan, hran⟩ := Answer.bind_eq_ok_iff.1 hrun
  obtain ⟨records, -, hon⟩ := Plan.run_eq_ok_iff.1 hran
  obtain ⟨-, rows, hrows, rfl⟩ := Plan.runOn_eq_ok_iff.1 hon
  have hnodup := (proper_of_plan hplan).distinct_names
  exact ⟨found.columnNames, listsColumns_of_plan hplan, columnNames_ne_nil_of_plan hplan, hnodup,
    fun row hrow => Plan.columns_of_rows hnodup hrows row (Plan.mem_arrange.1 hrow)⟩

/-! ## Queries in texts -/

theorem exists_run_of_runText {source : String}
    (hrun : runText maxRows store source = .ok output) :
    ∃ document, Json.read? source = some document ∧ run maxRows store document = .ok output := by
  obtain ⟨found, hplan, hran⟩ := Answer.bind_eq_ok_iff.1 hrun
  unfold planText at hplan
  split at hplan
  next document hread => exact ⟨document, hread, Answer.bind_eq_ok_iff.2 ⟨found, hplan, hran⟩⟩
  next => cases hplan

end Query

namespace CommandLine

open Query

variable {α β : Type} {tree later : FileTree}

/-! ## Actions -/

theorem run_bind {action : Action α} {next : α → Action β} {b : β}
    (hrun : (action >>= next).run.run tree = (.ok b, later)) :
    ∃ a middle, action.run.run tree = (.ok a, middle) ∧
      (next a).run.run middle = (.ok b, later) := by
  rw [ExceptT.run_bind, StateT.run_bind] at hrun
  cases haction : action.run.run tree with
  | mk result middle =>
      rw [haction] at hrun
      cases result with
      | ok a => exact ⟨a, middle, rfl, hrun⟩
      | error failure => cases hrun

theorem run_inspect (look : FileTree → Except Failure α) :
    (inspect look).run.run tree = (look tree, tree) := by
  have hget : (get : Action FileTree).run.run tree = pure (.ok tree, tree) := rfl
  unfold inspect
  rw [ExceptT.run_bind, StateT.run_bind, hget, pure_bind]
  dsimp only
  cases look tree <;> rfl

theorem report_of_writeTemplate {path : String} {report : Report}
    (hrun : (writeTemplate path).run.run tree = (.ok report, later)) :
    report = .written path := by
  unfold writeTemplate at hrun
  dsimp only at hrun
  split at hrun
  · obtain ⟨_, _, -, hrest⟩ := run_bind hrun
    obtain ⟨_, _, -, hend⟩ := run_bind hrest
    cases hend
    rfl
  · obtain ⟨_, _, -, hend⟩ := run_bind hrun
    cases hend
    rfl

/-! ## Runs -/

/-- Only the command for a query comes to rows. They are the answer of some store to the document
in its file. -/
theorem exists_run_of_performed {invocation : Invocation} {env : Environment} {output : Output}
    (hperform : (perform invocation env).run.run tree = (.ok (.rows output), later)) :
    ∃ file source document maxRows store, invocation.command = .query file ∧
      later.read file = .ok source ∧ Json.read? source = some document ∧
      Query.run maxRows store document = .ok output := by
  obtain ⟨config, _, -, hrest⟩ := run_bind hperform
  obtain ⟨_, middle, -, hcarried⟩ := run_bind hrest
  unfold carryOut at hcarried
  split at hcarried
  next file hcommand =>
    rw [run_inspect, Prod.mk.injEq] at hcarried
    obtain ⟨hran, rfl⟩ := hcarried
    obtain ⟨store, -, hrest⟩ := Answer.bind_eq_ok_iff.1 hran
    obtain ⟨source, hread, hrest⟩ := Answer.bind_eq_ok_iff.1 hrest
    obtain ⟨found, hfound, hend⟩ := Answer.bind_eq_ok_iff.1 hrest
    cases hend
    obtain ⟨document, hdocument, hrun⟩ :=
      exists_run_of_runText (Answer.mapError_eq_ok_iff.1 hfound)
    exact ⟨file, source, document, _, store, hcommand, Answer.mapError_eq_ok_iff.1 hread,
      hdocument, hrun⟩
  next =>
    rw [run_inspect, Prod.mk.injEq] at hcarried
    obtain ⟨store, -, hend⟩ := Answer.bind_eq_ok_iff.1 hcarried.1
    cases hend
  next => cases hcarried
  next => cases report_of_writeTemplate hcarried

/-- A run prints the text of the report that its command comes to. -/
theorem run_of_performed {arguments : List String} {env : Environment} {tree later : FileTree}
    {elapsed text : String} {invocation : Invocation} {report : Report}
    (hversion : asksVersion commonOptions arguments = false)
    (hinvocation : Invocation.ofArguments? arguments = some invocation)
    (hperform : (perform invocation env).run.run tree = (.ok report, later))
    (htext : report.text invocation.format elapsed = .ok text) :
    run arguments env tree elapsed = ⟨0, text, none, later⟩ := by
  have hbind : (Except.ok report).bind (fun report => report.text invocation.format elapsed) =
      .ok text := htext
  unfold run
  rw [if_neg (by simp [hversion]), hinvocation]
  simp only [hperform, Outcome.of, hbind]

end CommandLine

end CampusQuery
