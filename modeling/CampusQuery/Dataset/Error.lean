import CampusQuery.Schema
import CampusQuery.Text.Quoted

/-!
# Dataset errors

What can go wrong while datasets are added, removed or loaded, and the wording.
-/

namespace CampusQuery

/-- Why a dataset operation failed. -/
inductive DatasetError where
  | invalidId (id : String)
  | alreadyExists (id : String)
  | notFound (id : String)
  | empty (id : String)
  | kindMismatch (id : String) (index : Nat) (kind : Kind)
  | invalidRecord (reason : String)
  | unreadable (path reason : String)
  | unparsable (path reason : String)
deriving DecidableEq, Repr

def DatasetError.message : DatasetError → String
  | .invalidId id => "Invalid dataset id: '" ++ id ++ "'"
  | .alreadyExists id => "Dataset already exists: " ++ id
  | .notFound id => "Dataset not found: " ++ id
  | .empty id => "Dataset " ++ id ++ " contains no records"
  | .kindMismatch id index kind =>
      "Record " ++ toString index ++ " in dataset " ++ id ++ " does not match kind " ++ kind.name
  | .invalidRecord reason => "Invalid record: " ++ reason
  | .unreadable path reason => "Failed to read " ++ Text.quoted path ++ ": " ++ reason
  | .unparsable path reason => "Failed to parse " ++ Text.quoted path ++ ": " ++ reason

end CampusQuery
