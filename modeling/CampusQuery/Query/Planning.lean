import CampusQuery.Query.Clauses
import CampusQuery.Query.Where

/-!
# From documents to plans

A document is checked part by part: filter, transformation, columns and order,
then what holds between them. The first violation found is the one reported.
-/

namespace CampusQuery.Query

/-- The parts of a document, with the dataset they bind. -/
def checkDocument (registry : Registry) (document : Json) : Check Plan := do
  let entries ← asObject .query document
  checkKeys .query [["WHERE", "OPTIONS"], ["WHERE", "OPTIONS", "TRANSFORMATIONS"]] entries
  let filter ← filterOf registry ((Json.lookup? "WHERE" entries).getD .null)
  let transform ← match Json.lookup? "TRANSFORMATIONS" entries with
    | none => pure none
    | some value => some <$> transformOf registry value
  let (columns, order) ←
    optionsOf registry transform ((Json.lookup? "OPTIONS" entries).getD .null)
  match transform with
  | none => pure ()
  | some transform => checkColumnSet columns transform
  match ← get with
  | none => throw .noDataset
  | some bound =>
      pure {
        datasetId := bound.datasetId
        kind := bound.kind
        filter := filter
        columns := columns
        order := order
        transform := transform.getD .none }

namespace Plan

def ofDocument (registry : Registry) (document : Json) : Except Violation Plan :=
  (checkDocument registry document).run' none

end Plan

end CampusQuery.Query
