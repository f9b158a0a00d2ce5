import CampusQuery.CommandLine.Command
import CampusQuery.Dataset.Error
import CampusQuery.Logging
import CampusQuery.Query.Error

/-!
# Failures of a run

Why a run ends without its result, and what it then tells. A refused query and a
missing directory are told in words; other errors are shown with their parts.
-/

namespace CampusQuery

def DatasetError.shown : DatasetError → String
  | .invalidId id => "InvalidId(" ++ Text.quoted id ++ ")"
  | .alreadyExists id => "AlreadyExists(" ++ Text.quoted id ++ ")"
  | .notFound id => "NotFound(" ++ Text.quoted id ++ ")"
  | .empty id => "Empty(" ++ Text.quoted id ++ ")"
  | .kindMismatch id index kind =>
      "KindMismatch \x7b id: " ++ Text.quoted id ++ ", index: " ++ toString index ++ ", kind: "
        ++ kindShown kind ++ " \x7d"
  | .invalidRecord reason => "InvalidRecord(" ++ Text.quoted reason ++ ")"
  | .unreadable path reason => "Io " ++ parts path reason
  | .unparsable path reason => "Parse " ++ parts path reason
where
  kindShown : Kind → String
    | .sections => "Sections"
    | .rooms => "Rooms"
  parts (path reason : String) : String :=
    "\x7b path: " ++ Text.quoted path ++ ", error: " ++ Text.quoted reason ++ " \x7d"

def FileFault.className : FileFault → String
  | .missing => "NotFound"
  | .isDirectory => "IsADirectory"
  | .notDirectory => "NotADirectory"
  | .alreadyThere => "AlreadyExists"

def FileFault.shown (fault : FileFault) : String :=
  "Os \x7b code: " ++ toString fault.code ++ ", kind: " ++ fault.className ++ ", message: "
    ++ Text.quoted fault.wording ++ " \x7d"

namespace CommandLine

/-- Why a run fails. -/
inductive Failure where
  | usage
  | noDirectory
  | query (error : Query.QueryError)
  | dataset (error : DatasetError)
  | file (fault : FileFault)
  | logging (fault : LoggingFault)
  | unevenRecords
deriving DecidableEq, Repr

namespace Failure

def status : Failure → Nat
  | .usage => 2
  | _ => 1

def message : Failure → String
  | .usage => CommandLine.usage
  | .noDirectory => "No data directory. Pass --data <dir> or set [datasets] dir."
  | .query error => "Query failed: " ++ error.message
  | .dataset error => "Error: " ++ error.shown
  | .file fault => "Error: " ++ fault.shown
  | .logging fault => "Error: " ++ fault.report
  | .unevenRecords => "Error: UnequalLengths"

end Failure

end CommandLine

end CampusQuery
