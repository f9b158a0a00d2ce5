import CampusQuery.Dataset.Store
import CampusQuery.Query.Row
import Mathlib.Data.List.Forall2

/-!
# What the bodies of answers show

A row is shown as an object with one entry per cell, in the order of the cells,
and a dataset in a listing as an object with its id, its kind and the number of
its records. Both are said here without the functions that write them.
-/

namespace CampusQuery

open Numeric

/-- A JSON value shows a value: a text as a string and a number as a number. -/
inductive Value.ShownBy : Value → Json → Prop where
  | text (text : String) : ShownBy (.text text) (.string text)
  | number (x : Binary64) : ShownBy (.number x) (.number (.float x))

/-- A JSON object shows a row: its entries are named as the columns of the row, in order, and each
shows the value of its cell. -/
def Query.Row.ShownBy (row : Query.Row) (shown : Json) : Prop :=
  ∃ entries, shown = .object entries ∧
    List.Forall₂ (fun cell entry => entry.1 = cell.1 ∧ Value.ShownBy cell.2 entry.2)
      row.cells entries

/-- A JSON object lists a dataset. -/
def Dataset.ListedBy (dataset : Dataset) (listed : Json) : Prop :=
  ∃ kind, dataset.kind.NamedBy kind ∧ listed = .object [
    ("id", .string dataset.id),
    ("kind", .string kind),
    ("numRows", .number (.integer dataset.records.length))]

theorem Value.shownBy_encodeValue (value : Value) : value.ShownBy (Record.encodeValue value) := by
  cases value with
  | text text => exact .text text
  | number x => exact .number x

theorem Query.Row.shownBy_toJson (row : Query.Row) : row.ShownBy row.toJson := by
  refine ⟨_, rfl, ?_⟩
  rw [List.forall₂_map_right_iff, List.forall₂_same]
  exact fun cell _ => ⟨rfl, cell.2.shownBy_encodeValue⟩

theorem Query.Row.forall₂_shownBy (rows : List Query.Row) :
    List.Forall₂ Query.Row.ShownBy rows (rows.map Query.Row.toJson) := by
  rw [List.forall₂_map_right_iff, List.forall₂_same]
  exact fun row _ => row.shownBy_toJson

theorem Dataset.listedBy_toJson (dataset : Dataset) : dataset.ListedBy dataset.info.toJson :=
  ⟨_, dataset.kind.namedBy_name, rfl⟩

/-- The listing of a store lists its datasets, one after another. -/
theorem Store.forall₂_listedBy (store : Store) :
    List.Forall₂ Dataset.ListedBy store.datasets (store.list.map DatasetInfo.toJson) := by
  rw [list, List.map_map, List.forall₂_map_right_iff, List.forall₂_same]
  exact fun dataset _ => dataset.listedBy_toJson

end CampusQuery
