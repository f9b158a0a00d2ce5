import CampusQuery.Query.Error
import CampusQuery.Json.Basic

/-!
# The shape of query documents

Small checks on JSON values that every part of a query document shares. None of
them looks at a dataset.
-/

namespace CampusQuery.Query

def asObject (part : Part) : Json → Except Violation (List (String × Json))
  | .object entries => .ok entries
  | _ => .error (.notObject part)

/-- The items of an array that may not be empty. -/
def asItems (part : Part) : Json → Except Violation (List Json)
  | .array items => if items.isEmpty then .error (.emptyArray part) else .ok items
  | _ => .error (.notArray part)

def singleEntry (part : Part) : List (String × Json) → Except Violation (String × Json)
  | [entry] => .ok entry
  | entries => .error (.entryCount part entries.length)

/-- The only entry of a value that must be an object. -/
def asEntry (part : Part) (value : Json) : Except Violation (String × Json) := do
  singleEntry part (← asObject part value)

/-- Check the keys of an object, in order, against the layouts that are allowed. -/
def checkKeys (part : Part) (layouts : List (List String)) (entries : List (String × Json)) :
    Except Violation Unit :=
  let found := entries.map Prod.fst
  if layouts.contains found then .ok () else .error (.wrongKeys part found layouts)

def asKey (part : Part) : Json → Except Violation String
  | .string key => .ok key
  | _ => .error (.keysNotTexts part)

end CampusQuery.Query
