import CampusQuery.Query.Document
import CampusQuery.Query.Reference

/-!
# From `TRANSFORMATIONS` and `OPTIONS` to a plan's parts

Apply names are new words without the separator, so a column with a separator is
always a reference to a field and one without is always an apply name or the
bare name of a group field.
-/

namespace CampusQuery.Query

def groupFields (registry : Registry) : List Json → Check (List Field)
  | [] => pure []
  | item :: rest => do
      let field ← resolveField registry (← asKey .group item)
      let fields ← groupFields registry rest
      pure (field :: fields)

def checkApplyName (name : String) : Except Violation Unit :=
  if name.isEmpty then .error .emptyApplyName
  else if hasSeparator name then .error (.separatorInApplyName name)
  else .ok ()

def asToken (text : String) : Except Violation ApplyToken :=
  match ApplyToken.ofName? text with
  | some token => .ok token
  | none => .error (.unknownToken text)

/-- The reference that a token is applied to. -/
def asTarget (token : ApplyToken) : Json → Except Violation String
  | .string key => .ok key
  | _ => .error (.targetNotText token)

def applyRule (registry : Registry) (item : Json) : Check ApplyRule := do
  let (name, body) ← asEntry .applyRule item
  checkApplyName name
  let (token, target) ← asEntry .applyBody body
  let token ← asToken token
  let key ← asTarget token target
  let field ← resolveField registry key
  if token.accepts field then pure ⟨name, token, field⟩
  else throw (.wrongFieldType token.name key .numeric)

/-- The rules of `APPLY`; each name is new among the names in use. -/
def applyRules (registry : Registry) (used : List String) : List Json → Check (List ApplyRule)
  | [] => pure []
  | item :: rest => do
      let rule ← applyRule registry item
      if used.contains rule.name then throw (.duplicateApply rule.name)
      else
        let rules ← applyRules registry (rule.name :: used) rest
        pure (rule :: rules)

/-- The items of `APPLY`, of which there may be none. -/
def asRules : Json → Except Violation (List Json)
  | .array items => .ok items
  | _ => .error (.notArray .apply)

/-- The transformation of a `TRANSFORMATIONS` value. -/
def transformOf (registry : Registry) (value : Json) : Check Transform := do
  let entries ← asObject .transformations value
  checkKeys .transformations [["GROUP", "APPLY"]] entries
  let group ← asItems .group ((Json.lookup? "GROUP" entries).getD .null)
  let group ← groupFields registry group
  let rules ← asRules ((Json.lookup? "APPLY" entries).getD .null)
  let apply ← applyRules registry (group.map Field.bareName) rules
  pure ⟨group, apply⟩

/-- The source of a column without a separator. -/
def bareSource (transform : Option Transform) (name : String) : Except Violation ColumnSource :=
  match transform with
  | none => .error (.bareColumn name)
  | some transform =>
      if transform.apply.any fun rule => rule.name = name then .ok (.apply name)
      else match transform.group.find? fun field => field.bareName = name with
        | some field => .ok (.field field)
        | none => .error (.unknownColumn name)

def columnSource (registry : Registry) (transform : Option Transform) (name : String) :
    Check ColumnSource :=
  if hasSeparator name then do
    let field ← resolveField registry name
    pure (.field field)
  else liftM (bareSource transform name)

/-- The columns of `COLUMNS` after those before them; no name and no source comes twice. -/
def columnsAfter (registry : Registry) (transform : Option Transform) (before : List Column) :
    List Json → Check (List Column)
  | [] => pure []
  | item :: rest => do
      let name ← asKey .columns item
      if before.any fun column => column.name = name then throw (.duplicateColumn name)
      else
        let source ← columnSource registry transform name
        if before.any fun column => column.source = source then throw (.repeatedSource name)
        else
          let columns ← columnsAfter registry transform (⟨name, source⟩ :: before) rest
          pure (⟨name, source⟩ :: columns)

/-- A key of `ORDER`, which must be the name of a column. -/
def orderKey (columns : List Column) (key : String) : Except Violation String :=
  if columns.any fun column => column.name = key then .ok key
  else .error (.orderKeyNotColumn key)

def asDirection : Json → Except Violation Direction
  | .string text =>
      match Direction.ofName? text with
      | some direction => .ok direction
      | none => .error .orderDirection
  | _ => .error .orderDirection

def orderKeys (columns : List Column) (items : List Json) : Except Violation (List String) :=
  items.mapM fun item => do orderKey columns (← asKey .order item)

/-- The order of an `ORDER` value: one column name, or a direction and column names. -/
def orderOf (columns : List Column) : Json → Except Violation OrderSpec
  | .string key => do
      let key ← orderKey columns key
      .ok ⟨[key], .up⟩
  | .object entries =>
      match entries.length, Json.lookup? "dir" entries, Json.lookup? "keys" entries with
      | 2, some direction, some keys => do
          let direction ← asDirection direction
          let keys ← orderKeys columns (← asItems .orderKeys keys)
          .ok ⟨keys, direction⟩
      | _, _, _ => .error .orderShape
  | _ => .error .orderType

/-- The columns and the order of an `OPTIONS` value. -/
def optionsOf (registry : Registry) (transform : Option Transform) (value : Json) :
    Check (List Column × Option OrderSpec) := do
  let entries ← asObject .options value
  checkKeys .options [["COLUMNS"], ["COLUMNS", "ORDER"]] entries
  let items ← asItems .columns ((Json.lookup? "COLUMNS" entries).getD .null)
  let columns ← columnsAfter registry transform [] items
  match Json.lookup? "ORDER" entries with
  | none => pure (columns, none)
  | some order =>
      let order ← orderOf columns order
      pure (columns, some order)

/-- The sources that the columns of a transformation must be. -/
def Transform.sources (transform : Transform) : List ColumnSource :=
  transform.group.map .field ++ transform.apply.map fun rule => .apply rule.name

/-- Check that the columns are exactly the group fields and apply names, in any order. -/
def checkColumnSet (columns : List Column) (transform : Transform) : Except Violation Unit :=
  let actual := columns.map Column.source
  if transform.sources.all actual.contains && actual.all transform.sources.contains then .ok ()
  else .error .columnSet

end CampusQuery.Query
