import CampusQuery.Http.Message

/-!
# Sharing across origins

Which origins may read answers. Configured origins that cannot stand in a header
are passed over; if none is left every origin is allowed. The wildcard is not an
origin, and a list that names it is refused.
-/

namespace CampusQuery.Http

/-- Whether a text can be the value of a header. -/
def isHeaderValue (text : String) : Bool :=
  text.toList.all fun c => c = '\t' || (32 ≤ c.toNat && c.toNat ≠ 127)

/-- The origins that may read answers. -/
inductive OriginPolicy where
  | any
  | listed (origins : List String)
deriving DecidableEq, Repr

namespace OriginPolicy

/-- What stands for any origin, method or header. -/
def wildcard : String := "*"

/-- The policy of configured origins; none if a usable one is the wildcard. -/
def ofConfigured? (origins : List String) : Option OriginPolicy :=
  let usable := origins.filter isHeaderValue
  if usable.isEmpty then some .any
  else if usable.contains wildcard then none
  else some (.listed usable)

/-- The origin that an answer is opened to. -/
def allowed? (policy : OriginPolicy) (origin : Option String) : Option String :=
  match policy with
  | .any => some wildcard
  | .listed origins => origin.filter fun name => origins.contains name

/-- The headers that open an answer to an origin. What tells caches that an answer depends on the
request (`vary`), and what opens the headers of an answer (`access-control-expose-headers`), are
left out. -/
def headers (policy : OriginPolicy) (origin : Option String) : Headers :=
  ((policy.allowed? origin).map fun name => ("access-control-allow-origin", name)).toList

/-- The answer to a question of what is allowed: every method and header. It leaves out `vary` as
every answer does. -/
def preflight (policy : OriginPolicy) (origin : Option String) : Response :=
  (Response.bare 200).withHeaders (policy.headers origin ++
    [("access-control-allow-methods", wildcard), ("access-control-allow-headers", wildcard)])

end OriginPolicy

end CampusQuery.Http
