import CampusQuery.Json.Printer

/-!
# Requests and responses

Messages as values. The body of a response is kept as what it holds and written
out only at the edge.
-/

namespace CampusQuery.Http

abbrev Headers := List (String × String)

/-- The value of the first header of a name, in any case. -/
def Headers.get? (headers : Headers) (name : String) : Option String :=
  (headers.find? fun header => header.1.toLower = name.toLower).map Prod.snd

/-- What a request carries, octet by octet. -/
structure Octets where
  bytes : List UInt8
deriving DecidableEq, Repr

namespace Octets

def ofText (text : String) : Octets := ⟨text.toUTF8.data.toList⟩

instance : Coe String Octets := ⟨ofText⟩

/-- The longest text that octets begin with. -/
def leadingText (octets : Octets) : String :=
  let lengths := (List.range (octets.bytes.length + 1)).reverse
  (lengths.findSome? fun n => String.fromUTF8? ⟨(octets.bytes.take n).toArray⟩).getD ""

/-- The octets of a text begin with all of it. -/
theorem leadingText_ofText (text : String) : (ofText text).leadingText = text := by
  have hwhole : String.fromUTF8? ⟨(ofText text).bytes.toArray⟩ = some text := by
    unfold String.fromUTF8?
    exact dif_pos text.isValidUTF8
  rw [leadingText, List.range_succ, List.reverse_append]
  simp [hwhole]

end Octets

/-- A request. Its body need not be a text. -/
structure Request where
  method : String
  target : String
  headers : Headers
  body : Octets
deriving DecidableEq, Repr

/-- The target without its query and fragment. -/
def Request.resource (request : Request) : List Char :=
  request.target.toList.takeWhile fun c => c ≠ '?' && c ≠ '#'

/-- The path of a resource that names its host: what follows the host, or the top. -/
def pathAfterHost : List Char → Option (List Char)
  | ':' :: '/' :: '/' :: rest =>
      let path := rest.dropWhile (· ≠ '/')
      some (if path.isEmpty then ['/'] else path)
  | _ :: rest => pathAfterHost rest
  | [] => none

def Request.path (request : Request) : String :=
  match request.resource with
  | '/' :: rest => String.ofList ('/' :: rest)
  | resource => String.ofList ((pathAfterHost resource).getD resource)

def Request.origin? (request : Request) : Option String := request.headers.get? "origin"

def Request.size (request : Request) : Nat := request.body.bytes.length

/-- What a response holds. -/
inductive Body where
  | empty
  | text (content : String)
  | json (value : Json)
deriving Repr

def Body.content : Body → String
  | .empty => ""
  | .text content => content
  | .json value => value.compact

/-- A response. -/
structure Response where
  status : Nat
  headers : Headers
  body : Body
deriving Repr

namespace Response

def bare (status : Nat) : Response := ⟨status, [], .empty⟩

def text (status : Nat) (content : String) : Response :=
  ⟨status, [("content-type", "text/plain; charset=utf-8")], .text content⟩

def json (status : Nat) (value : Json) : Response :=
  ⟨status, [("content-type", "application/json")], .json value⟩

/-- The answer to a request that succeeded: its result in an envelope. -/
def result (value : Json) : Response := json 200 (.object [("result", value)])

/-- The answer to a method that a path does not serve. -/
def wrongMethod (allowed : String) : Response := ⟨405, [("allow", allowed)], .empty⟩

/-- The response with more headers at its end. -/
def withHeaders (response : Response) (headers : Headers) : Response :=
  { response with headers := response.headers ++ headers }

/-- The response as sent for a method: `HEAD` gets the headers only. -/
def forMethod (response : Response) (method : String) : Response :=
  if method = "HEAD" then { response with body := .empty } else response

end Response

end CampusQuery.Http
