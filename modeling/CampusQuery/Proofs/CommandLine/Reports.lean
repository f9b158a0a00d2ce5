import CampusQuery.Proofs.CommandLine.Runs
import CampusQuery.Proofs.Json.PlainNumbers
import CampusQuery.Proofs.Text.Csv

/-!
# Rows as comma-separated records

Rows that all have the columns of their query are written as records of one length. Whoever reads
the text finds the names of the columns and then every row with what its cells show.
-/

namespace CampusQuery.CommandLine

open Query Text
open Numeric (Binary64)

/-- A text tells a value: it is the value, or it is the plain text of a number, and a finite number
can be read from it again. -/
inductive Tells : String → Value → Prop where
  | text (value : String) : Tells value (.text value)
  | number {x : Binary64}
      (hread : x.isFinite = true → ∃ n, Json.read? x.plain = some (.number n) ∧ n.toBinary64 = x) :
      Tells x.plain (.number x)

theorem tells_shown (value : Value) : Tells value.shown value := by
  cases value with
  | text value => exact .text value
  | number x => exact .number Json.read?_plain

/-- The texts tell what a row holds under the names, one for each in their order. -/
def Shows (names : List String) (row : Row) (texts : List String) : Prop :=
  List.Forall₂ (fun name text => ∃ value, row.get? name = some value ∧ Tells text value)
    names texts

/-- A text is read back, whatever a line of nothing is taken for, as the names that a document lists
as columns and then in order a record of every row with the texts of its cells. -/
def ReadsBack (document : Json) (rows : List Row) (text : String) : Prop :=
  ∃ names records, ListsColumns document names ∧ (∀ row ∈ rows, row.columns = names) ∧
    List.Forall₂ (Shows names) rows records ∧
    ∀ keepsBlank, Csv.read? keepsBlank text = some (names :: records)

variable {document : Json} {names : List String} {rows : List Row}

theorem shows_textsOf {row : Row} (hnodup : row.columns.Nodup) :
    Shows row.columns row (textsOf row) := by
  rw [Shows, Row.columns, textsOf, List.forall₂_map_left_iff, List.forall₂_map_right_iff,
    List.forall₂_same]
  intro cell hcell
  exact ⟨cell.2, (Json.lookup?_eq_some_iff hnodup).2 hcell, tells_shown cell.2⟩

theorem csvRecords_of_heads (hheads : Heads document names rows) (hfilled : rows ≠ []) :
    csvRecords rows = names :: rows.map textsOf := by
  obtain ⟨first, rest, rfl⟩ := List.exists_cons_of_ne_nil hfilled
  rw [csvRecords, if_neg (by simp), columnsOf, hheads.columns_eq first List.mem_cons_self]

theorem length_of_mem_csvRecords (hheads : Heads document names rows) (hfilled : rows ≠ []) :
    ∀ fields ∈ csvRecords rows, fields.length = names.length := by
  rw [csvRecords_of_heads hheads hfilled, List.forall_mem_cons, List.forall_mem_map]
  refine ⟨rfl, fun row hrow => ?_⟩
  rw [← hheads.columns_eq row hrow, textsOf, Row.columns, List.length_map, List.length_map]

theorem readsBack_of_heads (hheads : Heads document names rows) (hfilled : rows ≠ []) :
    ReadsBack document rows (Csv.document (csvRecords rows)) := by
  refine ⟨names, rows.map textsOf, hheads.listed, hheads.columns_eq, ?_, fun keepsBlank => ?_⟩
  · refine List.forall₂_map_right_iff.2 (List.forall₂_same.2 fun row hrow => ?_)
    have hcolumns := hheads.columns_eq row hrow
    exact hcolumns ▸ shows_textsOf (hcolumns ▸ hheads.nodup)
  · rw [← csvRecords_of_heads hheads hfilled]
    refine Csv.read?_document fun fields hfields => ?_
    have hlength := length_of_mem_csvRecords hheads hfilled fields hfields
    rintro rfl
    exact hheads.ne_nil (List.length_eq_zero_iff.1 hlength.symm)

/-- An answer with rows has a text, and it can be read back. -/
theorem exists_csv_of_run {store : Store} {maxRows : Nat} {output : Output}
    (hrun : Query.run maxRows store document = .ok output) (hfilled : output.rows ≠ []) :
    ∃ text, ReadsBack document output.rows text ∧
      ∀ elapsed, (Report.rows output).text .csv elapsed = .ok text := by
  obtain ⟨names, hheads⟩ := exists_heads_of_run hrun
  refine ⟨_, readsBack_of_heads hheads hfilled, fun elapsed => ?_⟩
  rw [Report.text, Csv.write?_of_length (length_of_mem_csvRecords hheads hfilled)]

/-- Every answer with rows has a text that can be read back, and that is what the command line
prints when it comes to the rows. -/
theorem csv_reads_back {output : Output} (hfilled : output.rows ≠ []) :
    (∀ maxRows store document, Query.run maxRows store document = .ok output →
      ∃ text, ReadsBack document output.rows text ∧
        ∀ elapsed, (Report.rows output).text .csv elapsed = .ok text) ∧
    ∀ arguments env tree elapsed invocation later,
      asksVersion commonOptions arguments = false →
      Invocation.ofArguments? arguments = some invocation → invocation.format = .csv →
      (perform invocation env).run.run tree = (.ok (.rows output), later) →
      ∃ file source document text, invocation.command = .query file ∧
        later.read file = .ok source ∧ Json.read? source = some document ∧
        ReadsBack document output.rows text ∧
        run arguments env tree elapsed = ⟨0, text, none, later⟩ := by
  refine ⟨fun maxRows store document hrun => exists_csv_of_run hrun hfilled, ?_⟩
  intro arguments env tree elapsed invocation later hversion hinvocation hformat hperform
  obtain ⟨file, source, document, maxRows, store, hcommand, hread, hdocument, hrun⟩ :=
    exists_run_of_performed hperform
  obtain ⟨text, hreads, htext⟩ := exists_csv_of_run hrun hfilled
  exact ⟨file, source, document, text, hcommand, hread, hdocument, hreads,
    run_of_performed hversion hinvocation hperform (hformat ▸ htext elapsed)⟩

/-- A section of a department. -/
def sectionIn (dept : String) : Record :=
  .section {
    uuid := "1"
    id := "310"
    title := "intro"
    instructor := "smith"
    dept := dept
    year := .ofNat 2015
    avg := .ofNat 90
    pass := .ofNat 10
    fail := .ofNat 1
    audit := .ofNat 0 }

/-- The name of one department is empty, and that of the other has everything that is quoted. -/
def untidySections : Store :=
  ⟨[⟨"courses", .sections, [sectionIn "", sectionIn " a, \"b\"\r\n"]⟩]⟩

def untidyDepartments : Output :=
  ⟨[⟨[("courses_dept", .text "")]⟩, ⟨[("courses_dept", .text " a, \"b\"\r\n")]⟩], 2, 2⟩

/-- A record of nothing but an empty text is read back, and so is one of all that is quoted. -/
theorem untidy_departments_read_back :
    Query.run 5 untidySections departments = .ok untidyDepartments ∧
      untidyDepartments.rows ≠ [] ∧
      ReadsBack departments untidyDepartments.rows
        "courses_dept\n\"\"\n\" a, \"\"b\"\"\r\n\"\n" := by
  have hrun : Query.run 5 untidySections departments = .ok untidyDepartments := by decide +kernel
  have hfilled : untidyDepartments.rows ≠ [] := List.cons_ne_nil _ _
  obtain ⟨text, hreads, htext⟩ := (csv_reads_back hfilled).1 5 untidySections departments hrun
  have hwritten : (Report.rows untidyDepartments).text .csv "" =
      .ok "courses_dept\n\"\"\n\" a, \"\"b\"\"\r\n\"\n" := by decide +kernel
  cases (htext "").symm.trans hwritten
  exact ⟨hrun, hfilled, hreads⟩

end CampusQuery.CommandLine
