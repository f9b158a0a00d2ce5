import CampusQuery.Dataset.Error
import CampusQuery.Http.Message
import CampusQuery.Query.Error

/-!
# Service errors

Errors as clients see them: a status, a stable code and the wording.
-/

namespace CampusQuery

/-- Why the service fails a request. -/
inductive ServiceError where
  | invalid (reason : String)
  | dataset (error : DatasetError)
  | query (error : Query.QueryError)
  | internal (reason : String)
  | io (reason : String)
deriving DecidableEq, Repr

/-- The classes of errors that clients can tell apart. -/
inductive ErrorClass where
  | invalidRequest
  | invalidDatasetId
  | datasetExists
  | datasetNotFound
  | invalidDataset
  | datasetIo
  | resultTooLarge
  | invalidQuery
  | queryFailure
  | internal
  | io
deriving DecidableEq, Repr

namespace ErrorClass

/-- The stable code of a class. -/
def code : ErrorClass → String
  | .invalidRequest => "VALIDATION_ERROR"
  | .invalidDatasetId => "INVALID_DATASET_ID"
  | .datasetExists => "DATASET_EXISTS"
  | .datasetNotFound => "DATASET_NOT_FOUND"
  | .invalidDataset => "INVALID_DATASET"
  | .datasetIo => "DATASET_IO_ERROR"
  | .resultTooLarge => "RESULT_TOO_LARGE"
  | .invalidQuery => "INVALID_QUERY"
  | .queryFailure => "QUERY_ERROR"
  | .internal => "INTERNAL_ERROR"
  | .io => "IO_ERROR"

def status : ErrorClass → Nat
  | .datasetNotFound => 404
  | .datasetIo | .queryFailure | .internal | .io => 500
  | _ => 400

end ErrorClass

def DatasetError.errorClass : DatasetError → ErrorClass
  | .invalidId _ => .invalidDatasetId
  | .alreadyExists _ => .datasetExists
  | .notFound _ => .datasetNotFound
  | .empty _ | .kindMismatch .. | .invalidRecord _ => .invalidDataset
  | .unreadable .. | .unparsable .. => .datasetIo

def Query.QueryError.errorClass : Query.QueryError → ErrorClass
  | .tooLarge .. => .resultTooLarge
  | .invalid _ | .datasetNotFound _ => .invalidQuery
  | .execution _ => .queryFailure

namespace ServiceError

def errorClass : ServiceError → ErrorClass
  | .invalid _ => .invalidRequest
  | .dataset error => error.errorClass
  | .query error => error.errorClass
  | .internal _ => .internal
  | .io _ => .io

def message : ServiceError → String
  | .invalid reason => "Validation error: " ++ reason
  | .dataset error => error.message
  | .query error => error.message
  | .internal reason => "Internal error: " ++ reason
  | .io reason => "IO error: " ++ reason

/-- The answer that reports an error of a request. -/
def response (error : ServiceError) (requestId : String) : Http.Response :=
  .json error.errorClass.status (.object [
    ("error", .object [
      ("code", .string error.errorClass.code),
      ("message", .string error.message)]),
    ("request_id", .string requestId)])

end ServiceError

end CampusQuery
