import CampusQuery.Config.Basic
import CampusQuery.Dataset.Seed
import CampusQuery.Http.MediaType
import CampusQuery.Http.Origins
import CampusQuery.Http.Percent
import CampusQuery.Service.Error
import CampusQuery.Service.Route

/-!
# Handling requests

The service as a function from a store and a request to a store and a response.
Only two routes change the store, and only when they succeed.
-/

namespace CampusQuery

/-- The fixed part of a running service. -/
structure Service where
  origins : Http.OriginPolicy
  maxRows : Nat
  maxBodySize : Nat
deriving DecidableEq, Repr

namespace Service

open Http

/-- What differs from request to request apart from the request itself. -/
structure Moment where
  requestId : String
  uptimeSeconds : Nat
deriving DecidableEq, Repr

/-- Why a request is refused. -/
inductive Refusal where
  | undecodable (parameter : String)
  | notJson
  | tooLong
  | malformed
  | failed (error : ServiceError)
deriving DecidableEq, Repr

def Refusal.response (moment : Moment) : Refusal → Response
  | .undecodable parameter =>
      .text 400 ("Invalid URL: Invalid UTF-8 in \x60" ++ parameter ++ "\x60")
  | .notJson => .text 415 "Expected request with \x60Content-Type: application/json\x60"
  | .tooLong => .text 413 "Failed to buffer the request body: length limit exceeded"
  | .malformed => .text 400 "Failed to parse the request body as JSON"
  | .failed error => error.response moment.requestId

/-- A service for configured origins, if they make a policy. -/
def ofOrigins? (origins : List String) (maxRows maxBodySize : Nat) : Option Service :=
  (OriginPolicy.ofConfigured? origins).map fun policy => ⟨policy, maxRows, maxBodySize⟩

def ofConfig? (config : Config) : Option Service :=
  ofOrigins? config.api.corsOrigins config.query.maxResultRows ApiSettings.maxBodySize

def parameter (name raw : String) : Except Refusal String :=
  match percentDecode? raw with
  | some value => .ok value
  | none => .error (.undecodable name)

def announcesJson (request : Request) : Bool :=
  match (request.headers.get? "content-type").bind MediaType.read? with
  | some media => media.isJson
  | none => false

/-- The JSON value that the body of a request begins with. Nothing behind it is looked at, and
before it ends every octet has to be part of a character. -/
def readJson (service : Service) (request : Request) : Except Refusal Json :=
  if !announcesJson request then .error .notJson
  else if service.maxBodySize < request.size then .error .tooLong
  else match Json.readLeading? request.body.leadingText with
    | some value => .ok value
    | none => .error .malformed

def kindNamed (name : String) : Except Refusal Kind :=
  match Kind.ofNameAnyCase? name with
  | some kind => .ok kind
  | none => .error (.failed (.invalid
      ("Unknown dataset kind '" ++ name ++ "', expected sections or rooms")))

def checkList : Json → Except Refusal Unit
  | .array _ => .ok ()
  | _ => .error (.failed (.invalid "Dataset body must be a JSON array of records"))

def orDatasetError (result : Except DatasetError α) : Except Refusal α :=
  result.mapError fun error => .failed (.dataset error)

def textsJson (texts : List String) : Json := .array (texts.map Json.string)

/-- Add the dataset of a request and answer all ids. -/
def addDataset (service : Service) (store : Store) (request : Request) (id kind : String) :
    Except Refusal (Store × Response) := do
  let id ← parameter "id" id
  let kind ← parameter "kind" kind
  let records ← service.readJson request
  let kind ← kindNamed kind
  checkList records
  let dataset ← orDatasetError (Dataset.ofJson id kind records)
  let next ← orDatasetError (store.add dataset)
  .ok (next, .result (textsJson next.ids))

def removeDataset (store : Store) (id : String) : Except Refusal (Store × Response) := do
  let id ← parameter "id" id
  let next ← orDatasetError (store.remove id)
  .ok (next, .result (.string id))

/-- Answer the rows of the query in a request. -/
def runQuery (service : Service) (store : Store) (request : Request) : Except Refusal Response := do
  let document ← service.readJson request
  let output ← (Query.run service.maxRows store document).mapError fun error =>
    .failed (.query error)
  .ok (.result (.array (output.rows.map Query.Row.toJson)))

/-- The report on a service and its store. -/
def healthReport (moment : Moment) (store : Store) : Json :=
  .object [
    ("status", .string "healthy"),
    ("datasets", .ofNat store.size),
    ("uptime_seconds", .ofNat moment.uptimeSeconds),
    ("version", .string version)]

/-- Answer a request on a route that serves its method. -/
def perform (service : Service) (moment : Moment) (store : Store) (request : Request) :
    Route → Except Refusal (Store × Response)
  | .dataset id kind => service.addDataset store request id kind
  | .datasetId id => removeDataset store id
  | .datasets => .ok (store, .result (.array (store.list.map DatasetInfo.toJson)))
  | .query => (service.runQuery store request).map fun response => (store, response)
  | .health => .ok (store, .json 200 (healthReport moment store))
  | .liveness => .ok (store, .bare 200)

/-- Answer a request as far as routes decide. -/
def route (service : Service) (moment : Moment) (store : Store) (request : Request) :
    Store × Response :=
  match Route.ofPath? request.path with
  | none => (store, .bare 404)
  | some route =>
      if route.methods.contains request.method then
        match service.perform moment store request route with
        | .ok answer => answer
        | .error refusal => (store, refusal.response moment)
      else (store, .wrongMethod route.allowed)

/-- Answer a request. What is allowed across origins is said before any route is looked at. -/
def handle (service : Service) (moment : Moment) (store : Store) (request : Request) :
    Store × Response :=
  if request.method = "OPTIONS" then (store, service.origins.preflight request.origin?)
  else
    let (next, response) := service.route moment store request
    (next, (response.forMethod request.method).withHeaders
      (service.origins.headers request.origin?))

def handleAll (service : Service) (store : Store) :
    List (Moment × Request) → Store × List Response
  | [] => (store, [])
  | (moment, request) :: rest =>
      let (next, response) := service.handle moment store request
      let (last, responses) := service.handleAll next rest
      (last, response :: responses)

end Service

end CampusQuery
