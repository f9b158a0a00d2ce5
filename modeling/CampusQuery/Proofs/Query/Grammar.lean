import CampusQuery.Query.Planning
import CampusQuery.Proofs.Query.Arena

/-!
# The grammar of query documents

Which JSON values write a plan while a dataset is bound, section by section.
Nothing here depends on the order in which a document is read.
-/

namespace CampusQuery.Query

/-- The empty object writes that there is no filter, any other value its condition's tree. -/
inductive FilterWrittenBy (bound : Bound) : Option FilterTree → Json → Prop where
  | everything : FilterWrittenBy bound none (.object [])
  | condition {condition : Condition} {json : Json} : condition.WrittenBy bound json →
      FilterWrittenBy bound (some condition.tree) json

/-! ## Transformations -/

inductive ApplyRule.WrittenBy (bound : Bound) : ApplyRule → Json → Prop where
  | rule {name key : String} {token : ApplyToken} {field : Field} :
      name ≠ "" → hasSeparator name = false → bound.Refers key field →
      (token = .count ∨ field.fieldType = .numeric) →
      WrittenBy bound ⟨name, token, field⟩
        (.object [(name, .object [(token.name, .string key)])])

/-- `GROUP` refers to one field or more; `APPLY` gives new names, each of them once. -/
inductive Transform.WrittenBy (bound : Bound) : Transform → Json → Prop where
  | groupApply {keys : List String} {group : List Field} {rules : List Json}
      {apply : List ApplyRule} :
      keys ≠ [] → List.Forall₂ (fun field key => bound.Refers key field) group keys →
      List.Forall₂ (ApplyRule.WrittenBy bound) apply rules →
      (apply.map ApplyRule.name).Nodup →
      (∀ rule ∈ apply, rule.name ∉ group.map Field.bareName) →
      WrittenBy bound ⟨group, apply⟩
        (.object [("GROUP", .array (keys.map .string)), ("APPLY", .array rules)])

/-! ## Options -/

/-- What a column's name stands for. Names that are no references stand for a part of the
transformation, if there is one. -/
inductive ColumnSource.NamedBy (bound : Bound) (transform : Option Transform) :
    ColumnSource → String → Prop where
  | reference {key : String} {field : Field} : bound.Refers key field →
      NamedBy bound transform (.field field) key
  | applied {known : Transform} {rule : ApplyRule} : transform = some known →
      rule ∈ known.apply → NamedBy bound transform (.apply rule.name) rule.name
  | grouped {known : Transform} {field : Field} : transform = some known →
      field ∈ known.group → NamedBy bound transform (.field field) field.bareName

/-- `COLUMNS` names one column or more; no two have one name or one source. -/
structure ColumnsWrittenBy (bound : Bound) (transform : Option Transform)
    (columns : List Column) (json : Json) : Prop where
  spelled : json = .array (columns.map fun column => .string column.name)
  ne_nil : columns ≠ []
  named : ∀ column ∈ columns, column.source.NamedBy bound transform column.name
  distinct_names : (columns.map Column.name).Nodup
  distinct_sources : (columns.map Column.source).Nodup

/-- `ORDER` is a column name, or an object of a direction and column names in any key order. -/
inductive OrderSpec.WrittenBy (columns : List String) : OrderSpec → Json → Prop where
  | key {key : String} : key ∈ columns → WrittenBy columns ⟨[key], .up⟩ (.string key)
  | directed {keys : List String} {direction : Direction} {entries : List (String × Json)} :
      keys ≠ [] → (∀ key ∈ keys, key ∈ columns) →
      entries.Perm [("dir", .string direction.name), ("keys", .array (keys.map .string))] →
      WrittenBy columns ⟨keys, direction⟩ (.object entries)

inductive OptionsWrittenBy (bound : Bound) (transform : Option Transform) :
    List Column → Option OrderSpec → Json → Prop where
  | unordered {columns : List Column} {json : Json} :
      ColumnsWrittenBy bound transform columns json →
      OptionsWrittenBy bound transform columns none (.object [("COLUMNS", json)])
  | ordered {columns : List Column} {order : OrderSpec} {json written : Json} :
      ColumnsWrittenBy bound transform columns json →
      order.WrittenBy (columns.map Column.name) written →
      OptionsWrittenBy bound transform columns (some order)
        (.object [("COLUMNS", json), ("ORDER", written)])

/-! ## Documents -/

/-- The keys of a document come in one order, and with a transformation the columns are exactly
its group fields and apply names. -/
inductive Plan.WrittenBy (bound : Bound) : Plan → Json → Prop where
  | plain {filter : Option FilterTree} {columns : List Column} {order : Option OrderSpec}
      {written options : Json} :
      FilterWrittenBy bound filter written →
      OptionsWrittenBy bound none columns order options →
      WrittenBy bound ⟨bound.datasetId, bound.kind, filter, columns, order, .none⟩
        (.object [("WHERE", written), ("OPTIONS", options)])
  | transformed {filter : Option FilterTree} {transform : Transform} {columns : List Column}
      {order : Option OrderSpec} {written options transformations : Json} :
      FilterWrittenBy bound filter written → transform.WrittenBy bound transformations →
      OptionsWrittenBy bound (some transform) columns order options →
      (∀ source, source ∈ columns.map Column.source ↔ source ∈ transform.sources) →
      WrittenBy bound ⟨bound.datasetId, bound.kind, filter, columns, order, transform⟩
        (.object [("WHERE", written), ("OPTIONS", options), ("TRANSFORMATIONS", transformations)])

end CampusQuery.Query
