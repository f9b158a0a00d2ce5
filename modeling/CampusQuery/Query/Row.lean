import CampusQuery.Query.Plan
import CampusQuery.Record.Decoding

/-!
# Result rows

Rows hold their cells in column order. They are sorted by the cells of some
columns, and rows that tie keep their order in both directions.
-/

namespace CampusQuery.Query

/-- A result row: cells by column name. -/
structure Row where
  cells : List (String × Value)
deriving DecidableEq, Repr

namespace Row

/-- The row of cells given in order; a name given twice keeps one cell. -/
def ofCells (cells : List (String × Value)) : Row := ⟨Json.distinct cells⟩

def get? (row : Row) (column : String) : Option Value := Json.lookup? column row.cells

def columns (row : Row) : List String := row.cells.map Prod.fst

def toJson (row : Row) : Json :=
  .object (row.cells.map fun cell => (cell.1, Record.encodeValue cell.2))

/-- The order of two cells: texts by code points, numbers by value, numbers before texts. -/
def compareCells : Value → Value → Ordering
  | .text a, .text b => compare a b
  | .number a, .number b => (a.compare? b).getD .eq
  | .number _, .text _ => .lt
  | .text _, .number _ => .gt

/-- The order of two rows by a column; rows without the cell tie. -/
def compareBy (column : String) (a b : Row) : Ordering :=
  match a.get? column, b.get? column with
  | some x, some y => compareCells x y
  | _, _ => .eq

/-- The order of two rows by columns, where a later column only breaks ties. -/
def compareByKeys (a b : Row) : List String → Ordering
  | [] => .eq
  | key :: keys => (compareBy key a b).then (compareByKeys a b keys)

/-- Whether a row may stand before another. -/
def mayPrecede (order : OrderSpec) (a b : Row) : Bool :=
  match order.direction with
  | .up => compareByKeys a b order.keys != .gt
  | .down => compareByKeys a b order.keys != .lt

def sort (order : OrderSpec) (rows : List Row) : List Row := rows.mergeSort (mayPrecede order)

end Row

end CampusQuery.Query
