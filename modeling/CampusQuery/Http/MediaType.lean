/-!
# Media types

The value of a `content-type` header: a type, a subtype that may end in a suffix
after a plus sign, and parameters. Only the types are kept; the parameters must
be well formed.
-/

namespace CampusQuery.Http

/-- A media type without its parameters, in lower case. -/
structure MediaType where
  type : String
  subtype : String
  suffix : Option String
deriving DecidableEq, Repr

namespace MediaType

/-- The characters of names and bare values. -/
def isTokenChar (c : Char) : Bool := c.isAlphanum || "!#$%&\x27*+-.^_\x60|~".toList.contains c

/-- The characters inside a quoted value. -/
def isQuotedChar (c : Char) : Bool := 32 ≤ c.toNat && c.toNat ≠ 127

/-- What has been read of a list of parameters. -/
inductive Progress where
  | between
  | inName
  | beforeValue
  | inValue
  | quoteOpened
  | inQuotes
  | quoteClosed
deriving DecidableEq, Repr

/-- Read one more character of a list of parameters. A quoted value is not empty. -/
def Progress.next? (progress : Progress) (c : Char) : Option Progress :=
  match progress with
  | .between => if c = ' ' then some .between else if isTokenChar c then some .inName else none
  | .inName => if c = '=' then some .beforeValue else if isTokenChar c then some .inName else none
  | .beforeValue =>
      if c = '"' then some .quoteOpened else if isTokenChar c then some .inValue else none
  | .inValue => if c = ';' then some .between else if isTokenChar c then some .inValue else none
  | .quoteOpened => if isQuotedChar c then some .inQuotes else none
  | .inQuotes =>
      if c = '"' then some .quoteClosed else if isQuotedChar c then some .inQuotes else none
  | .quoteClosed => if c = ';' then some .between else if c = ' ' then some .quoteClosed else none

/-- Whether a list of parameters may end here. -/
def Progress.isComplete : Progress → Bool
  | .inName | .quoteOpened | .inQuotes => false
  | _ => true

/-- Whether a text is a list of parameters. -/
def areParameters (text : List Char) : Bool :=
  match text.foldlM Progress.next? .between with
  | some progress => progress.isComplete
  | none => false

/-- A subtype and its suffix: what follows the last plus sign that is not at its front. -/
def splitSuffix (name : List Char) : List Char × Option (List Char) :=
  let suffix := (name.reverse.takeWhile (· ≠ '+')).reverse
  if suffix.length + 2 ≤ name.length then
    (name.take (name.length - suffix.length - 1), some suffix)
  else (name, none)

def lowered (text : List Char) : String := String.ofList (text.map Char.toLower)

/-- Whether a header value can be read as text: printing ASCII, blanks and tabs. -/
def isPlainHeader (value : String) : Bool :=
  value.toList.all fun c => c = '\t' || (32 ≤ c.toNat && c.toNat < 127)

/-- Read the value of a `content-type` header. -/
def read? (value : String) : Option MediaType :=
  if !isPlainHeader value then none
  else
    let chars := value.toList
    let type := chars.takeWhile isTokenChar
    match type, chars.dropWhile isTokenChar with
    | _ :: _, '/' :: rest =>
        let subtype := rest.takeWhile isTokenChar
        let known : MediaType :=
          ⟨lowered type, lowered (splitSuffix subtype).1, (splitSuffix subtype).2.map lowered⟩
        match subtype, rest.dropWhile isTokenChar with
        | _ :: _, [] => some known
        | _ :: _, ';' :: parameters => if areParameters parameters then some known else none
        | _, _ => none
    | _, _ => none

def isJson (media : MediaType) : Bool :=
  media.type = "application" && (media.subtype = "json" || media.suffix = some "json")

end MediaType

end CampusQuery.Http
