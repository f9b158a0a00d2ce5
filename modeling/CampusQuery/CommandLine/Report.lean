import CampusQuery.CommandLine.Failure
import CampusQuery.Config.Basic
import CampusQuery.Json.Printer
import CampusQuery.Text.Csv
import CampusQuery.Text.Table

/-!
# Reports

The result of a command and its text in each format.
-/

namespace CampusQuery.CommandLine

/-- The result of a command. -/
inductive Report where
  | rows (output : Query.Output)
  | datasets (infos : List DatasetInfo)
  | template
  | written (path : String)
deriving DecidableEq, Repr

def unlines (lines : List String) : String := String.join (lines.map fun line => line ++ "\n")

/-- The columns of rows: those of the first. -/
def columnsOf : List Query.Row → List String
  | [] => []
  | first :: _ => first.columns

/-- The texts of the cells of a row under given columns. -/
def textsUnder (columns : List String) (row : Query.Row) : List String :=
  columns.map fun column => ((row.get? column).map Value.shown).getD ""

def textsOf (row : Query.Row) : List String := row.cells.map fun cell => cell.2.shown

def tableLines (rows : List Query.Row) : List String :=
  if rows.isEmpty then ["No rows"]
  else Text.Table.lines (columnsOf rows) (rows.map (textsUnder (columnsOf rows)))

/-- The records of rows: the names of the columns and then each row. -/
def csvRecords (rows : List Query.Row) : List (List String) :=
  if rows.isEmpty then [] else columnsOf rows :: rows.map textsOf

def rowsJson (rows : List Query.Row) : Json := .array (rows.map Query.Row.toJson)

def summary (output : Query.Output) (elapsed : String) : String :=
  toString output.rows.length ++ " rows (" ++ toString output.matched ++ " of "
    ++ toString output.scanned ++ " records matched) in " ++ elapsed ++ " ms"

/-- The lines of a list of datasets. The kind is not padded below its heading. -/
def datasetLines (infos : List DatasetInfo) : List String :=
  if infos.isEmpty then ["No datasets found."]
  else
    (Text.padRight 20 "ID" ++ " " ++ Text.padRight 10 "Kind" ++ " Rows") :: Text.dashes 40
      :: infos.map fun info =>
        Text.padRight 20 info.id ++ " " ++ info.kind.name ++ " " ++ toString info.rows

/-- The text of a report, given how long the command took. -/
def Report.text (format : Format) (elapsed : String) : Report → Except Failure String
  | .rows output =>
      match format with
      | .json => .ok (unlines [(rowsJson output.rows).pretty])
      | .csv =>
          match Text.Csv.write? (csvRecords output.rows) with
          | some text => .ok text
          | none => .error .unevenRecords
      | .table => .ok (unlines (tableLines output.rows ++ ["", summary output elapsed]))
  | .datasets infos =>
      match format with
      | .json => .ok (unlines [(Json.array (infos.map DatasetInfo.toJson)).pretty])
      | _ => .ok (unlines (datasetLines infos))
  | .template => .ok Config.template
  | .written path => .ok (unlines ["Config written to " ++ Text.quoted path])

end CampusQuery.CommandLine
