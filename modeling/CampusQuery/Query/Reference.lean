import CampusQuery.Query.Error

/-!
# References to fields

All references of a document must name one dataset. The first reference binds
it, and the registry is asked for its kind at that moment only.
-/

namespace CampusQuery.Query

/-- The dataset that a document refers to. -/
structure Bound where
  datasetId : String
  kind : Kind
deriving DecidableEq, Repr

/-- A check of a document: it may bind the dataset, or find a violation. -/
abbrev Check := StateT (Option Bound) (Except Violation)

/-- The kind of a dataset, which becomes or already is the bound one. -/
def bindDataset (registry : Registry) (datasetId : String) : Check Kind := do
  match ← get with
  | some bound =>
      if bound.datasetId = datasetId then pure bound.kind
      else throw (.secondDataset bound.datasetId datasetId)
  | none =>
      match registry datasetId with
      | some kind =>
          set (some (Bound.mk datasetId kind))
          pure kind
      | none => throw (.unknownDataset datasetId)

def resolveField (registry : Registry) (key : String) : Check Field := do
  match QualifiedName.parse? key with
  | none => throw (.malformedKey key)
  | some reference =>
      let kind ← bindDataset registry reference.datasetId
      match kind.field? reference.field with
      | some field => pure field
      | none => throw (.unknownField key kind reference.field)

/-- The field of a qualified name, which must have a type. -/
def resolveTyped (registry : Registry) (key : String) (wanted : FieldType) (part : Part) :
    Check Field := do
  let field ← resolveField registry key
  if field.fieldType = wanted then pure field
  else throw (.wrongFieldType part.name key wanted)

end CampusQuery.Query
