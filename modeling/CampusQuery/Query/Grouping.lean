import CampusQuery.Query.Aggregate
import CampusQuery.Query.Row

/-!
# Grouping

Records with equal values in the group fields form a group. Groups come in the
order of their first members, and members keep their order.
-/

namespace CampusQuery.Query

/-- What identifies a group: one part per group field. -/
abbrev GroupKey := List KeyPart

/-- The value of a field that the record must have. -/
def readField (record : Record) (field : Field) : Except ExecutionFault Value :=
  match record.get? field with
  | some value => .ok value
  | none => .error (.noField record.kind field)

/-- The key of the group that a record belongs to. -/
def groupKey (group : List Field) (record : Record) : Except ExecutionFault GroupKey :=
  group.mapM fun field => do
    let value ← readField record field
    .ok (KeyPart.ofValue value)

/-- Put an item behind those of its key; the first of a key opens a new place at the end. -/
def putMember {α κ : Type} [DecidableEq κ] (key : κ) (item : α) :
    List (κ × Array α) → List (κ × Array α)
  | [] => [(key, #[item])]
  | (known, members) :: rest =>
      if known = key then (known, members.push item) :: rest
      else (known, members) :: putMember key item rest

/-- Put a record into its group. -/
def putRecord (group : List Field) (groups : List (GroupKey × Array Record)) (record : Record) :
    Except ExecutionFault (List (GroupKey × Array Record)) := do
  let key ← groupKey group record
  .ok (putMember key record groups)

def groupsOf (group : List Field) (records : List Record) :
    Except ExecutionFault (List (List Record)) := do
  let groups ← records.foldlM (putRecord group) []
  .ok (groups.map fun entry => entry.2.toList)

/-- The numbers of apply rules over a group, by name. -/
def applied (rules : List ApplyRule) (members : List Record) :
    Except ExecutionFault (List (String × Numeric.Binary64)) :=
  rules.mapM fun rule => do
    let values ← members.mapM fun record => readField record rule.field
    let number ← aggregate rule.token values
    .ok (rule.name, number)

/-- The cell of a column for a group; group fields are read from its first member. -/
def groupCell (first : Record) (numbers : List (String × Numeric.Binary64)) (column : Column) :
    Except ExecutionFault (String × Value) :=
  match column.source with
  | .field field => do
      let value ← readField first field
      .ok (column.name, value)
  | .apply name =>
      match (numbers.reverse.find? fun entry => entry.1 = name) with
      | some (_, number) => .ok (column.name, .number number)
      | none => .error (.unknownApply name)

def groupRow (plan : Plan) (members : List Record) : Except ExecutionFault Row :=
  match members with
  | [] => .error .emptyGroup
  | first :: _ => do
      let numbers ← applied plan.transform.apply members
      let cells ← plan.columns.mapM (groupCell first numbers)
      .ok (Row.ofCells cells)

end CampusQuery.Query
