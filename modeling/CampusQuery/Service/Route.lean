import CampusQuery.Http.Message

/-!
# Routes

The paths that the service answers and the method of each. Paths are compared
name by name, so a slash at the end makes another path.
-/

namespace CampusQuery.Service

/-- A path of the service with its parameters as written. -/
inductive Route where
  | dataset (id kind : String)
  | datasetId (id : String)
  | datasets
  | query
  | health
  | liveness
deriving DecidableEq, Repr

namespace Route

/-- The parts of a path between its slashes. -/
def segments (path : String) : List String := (path.toList.splitOn '/').map String.ofList

/-- The route of a path. A parameter is never empty. -/
def ofPath? (path : String) : Option Route :=
  match segments path with
  | ["", "api", "v1", "dataset", id, kind] =>
      if id.isEmpty || kind.isEmpty then none else some (.dataset id kind)
  | ["", "api", "v1", "dataset", id] => if id.isEmpty then none else some (.datasetId id)
  | ["", "api", "v1", "datasets"] => some .datasets
  | ["", "api", "v1", "query"] => some .query
  | ["", "health"] => some .health
  | ["", "health", "live"] => some .liveness
  | _ => none

/-- The methods that a route serves. What can be read can be asked for its headers. -/
def methods : Route → List String
  | .dataset .. => ["PUT"]
  | .datasetId _ => ["DELETE"]
  | .query => ["POST"]
  | .datasets | .health | .liveness => ["GET", "HEAD"]

/-- The methods of a route as listed to clients. -/
def allowed (route : Route) : String := ",".intercalate route.methods

end Route

end CampusQuery.Service
