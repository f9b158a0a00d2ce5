import CampusQuery.Dataset.Store
import CampusQuery.Json.Reader
import CampusQuery.Query.Grouping
import CampusQuery.Query.Planning

/-!
# Running queries

A plan is run on one dataset of a store: its records are filtered, projected or
grouped into rows, and the rows are sorted. The number of rows is checked
against a cap before anything is sorted.
-/

namespace CampusQuery.Query

/-- The answer to a query. -/
structure Output where
  rows : List Row
  scanned : Nat
  matched : Nat
deriving DecidableEq, Repr

/-- The cap on rows when none is configured. -/
def defaultMaxRows : Nat := 5000

def orFault (result : Except ExecutionFault α) : Except QueryError α :=
  result.mapError fun fault => .execution fault.message

def recordCell (record : Record) (column : Column) : Except ExecutionFault (String × Value) :=
  match column.source with
  | .field field => do
      let value ← readField record field
      .ok (column.name, value)
  | .apply name => .error (.applyWithoutGroup name)

def recordRow (plan : Plan) (record : Record) : Except ExecutionFault Row := do
  let cells ← plan.columns.mapM (recordCell record)
  .ok (Row.ofCells cells)

/-- Check a number of rows against the cap. -/
def checkSize (maxRows rows : Nat) : Except QueryError Unit :=
  if maxRows < rows then .error (.tooLarge rows maxRows) else .ok ()

namespace Plan

/-- The records that the filter lets through, in their order. -/
def matching (plan : Plan) (records : List Record) : List Record :=
  match plan.filter with
  | none => records
  | some tree => records.filter tree.holds

/-- Check that records are of the plan's kind. -/
def checkKind (plan : Plan) (records : List Record) : Except QueryError Unit :=
  match records with
  | [] => .ok ()
  | record :: _ =>
      if record.kind = plan.kind then .ok ()
      else orFault (.error (.wrongKind plan.datasetId record.kind plan.kind))

/-- The rows for matching records, not yet sorted. -/
def rows (plan : Plan) (maxRows : Nat) (records : List Record) : Except QueryError (List Row) :=
  if plan.transform.isGrouped then do
    let groups ← orFault (groupsOf plan.transform.group records)
    checkSize maxRows groups.length
    orFault (groups.mapM (groupRow plan))
  else do
    checkSize maxRows records.length
    orFault (records.mapM (recordRow plan))

/-- Rows in the order that the plan asks for. -/
def arrange (plan : Plan) (rows : List Row) : List Row :=
  match plan.order with
  | none => rows
  | some order => Row.sort order rows

def runOn (plan : Plan) (maxRows : Nat) (records : List Record) : Except QueryError Output := do
  plan.checkKind records
  let matched := plan.matching records
  let rows ← plan.rows maxRows matched
  .ok ⟨plan.arrange rows, records.length, matched.length⟩

/-- Run the plan on its dataset in a store. -/
def run (plan : Plan) (maxRows : Nat) (store : Store) : Except QueryError Output :=
  match store.recordsOf? plan.datasetId with
  | none => .error (.datasetNotFound plan.datasetId)
  | some records => plan.runOn maxRows records

end Plan

/-- The plan of a document, a violation being a query error. -/
def plan (registry : Registry) (document : Json) : Except QueryError Plan :=
  (Plan.ofDocument registry document).mapError fun violation => .invalid violation.message

/-- The plan of a document given as text. -/
def planText (registry : Registry) (text : String) : Except QueryError Plan :=
  match Json.read? text with
  | some document => plan registry document
  | none => .error (.invalid Violation.notJson.message)

def run (maxRows : Nat) (store : Store) (document : Json) : Except QueryError Output := do
  let plan ← plan store.registry document
  plan.run maxRows store

/-- Check and run a document given as text. -/
def runText (maxRows : Nat) (store : Store) (text : String) : Except QueryError Output := do
  let plan ← planText store.registry text
  plan.run maxRows store

end CampusQuery.Query
