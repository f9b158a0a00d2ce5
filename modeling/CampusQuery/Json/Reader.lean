import CampusQuery.Json.Basic
import CampusQuery.Text.Reader

/-!
# Reading JSON texts

The grammar of RFC 8259 without extensions. Nesting is bounded by a depth the
caller gives. `Json.read?` takes a whole text; `Json.readLeading?` takes the
first value and ignores what follows it.
-/

namespace CampusQuery.Json

open Numeric
open Text (Reader hexDigit? decimalValue)

namespace Reader

/-- The four blanks between tokens. -/
def isBlank (c : Char) : Bool := c = ' ' || c = '\t' || c = '\n' || c = '\r'

def skipBlanks (input : List Char) : List Char := input.dropWhile isBlank

/-- The code unit of four hexadecimal digits. -/
def codeUnit? (a b c d : Char) : Option Nat := do
  let a ← hexDigit? a
  let b ← hexDigit? b
  let c ← hexDigit? c
  let d ← hexDigit? d
  pure (((a * 16 + b) * 16 + c) * 16 + d)

/-- Whether a code unit is the first half of a pair. -/
def isHighSurrogate (unit : Nat) : Bool := 0xD800 ≤ unit && unit < 0xDC00

/-- Whether a code unit is the second half of a pair. -/
def isLowSurrogate (unit : Nat) : Bool := 0xDC00 ≤ unit && unit < 0xE000

/-- The character of a pair of halves. -/
def joinSurrogates (high low : Nat) : Char :=
  Char.ofNat (0x10000 + (high - 0xD800) * 0x400 + (low - 0xDC00))

/-- The character an escape letter stands for. -/
def simpleEscape? : Char → Option Char
  | '"' => some '"'
  | '\\' => some '\\'
  | '/' => some '/'
  | 'b' => some '\x08'
  | 'f' => some '\x0c'
  | 'n' => some '\n'
  | 'r' => some '\r'
  | 't' => some '\t'
  | _ => none

/-- How carefully a value is read. A skipped value is only scanned for its end: halves of
pairs may stand alone and numbers may have any size. -/
inductive Care where
  | kept
  | skipped
deriving DecidableEq

/-- The rest of a string after its opening quote. `high` is the half of a pair that waits for
the other half; the characters read so far are kept in reverse. -/
def stringBody (care : Care) (high : Option Nat) (done : List Char) :
    List Char → Option (List Char × List Char)
  | [] => none
  | '"' :: rest => if high.isSome then none else some (done.reverse, rest)
  | '\\' :: 'u' :: a :: b :: c :: d :: rest =>
      match codeUnit? a b c d with
      | none => none
      | some unit =>
          if care = .skipped then stringBody care none done rest
          else match high with
            | some first =>
                if isLowSurrogate unit then
                  stringBody care none (joinSurrogates first unit :: done) rest
                else none
            | none =>
                if isHighSurrogate unit then stringBody care (some unit) done rest
                else if isLowSurrogate unit then none
                else stringBody care none (Char.ofNat unit :: done) rest
  | '\\' :: c :: rest =>
      if high.isSome then none
      else match simpleEscape? c with
        | some escaped => stringBody care none (escaped :: done) rest
        | none => none
  | c :: rest =>
      if high.isSome || c = '\\' || c.toNat < 0x20 then none
      else stringBody care none (c :: done) rest

/-- The leading decimal digits and what follows them. -/
def digits (input : List Char) : List Char × List Char := input.span Char.isDigit

/-- The digits after a decimal point, if there is one. -/
def fractionDigits : Reader (List Char)
  | '.' :: rest =>
      let (places, rest) := digits rest
      if places.isEmpty then none else some (places, rest)
  | rest => some ([], rest)

/-- The exponent, if there is one. -/
def exponent : Reader (Option Int)
  | c :: rest =>
      if c = 'e' || c = 'E' then
        let (negative, rest) := match rest with
          | '-' :: rest => (true, rest)
          | '+' :: rest => (false, rest)
          | rest => (false, rest)
        let (power, rest) := digits rest
        if power.isEmpty then none
        else
          let value : Int := decimalValue power
          some (some (if negative then -value else value), rest)
      else some (none, c :: rest)
  | [] => some (none, [])

/-- An integer of 64 bits as it is, and any other number as the nearest binary64 number. -/
def integerOf (negative : Bool) (value : Nat) : JsonNumber :=
  if negative then
    if 0 < value ∧ Int64.minValue.toInt ≤ -(value : Int) then .integer (-value)
    else .float (.ofScientific true value 0)
  else if value < UInt64.size then .integer value else .float (.ofScientific false value 0)

/-- A number; one too large for binary64 is refused. -/
def number (care : Care) (input : List Char) : Option (JsonNumber × List Char) := do
  let (negative, input) := match input with
    | '-' :: rest => (true, rest)
    | rest => (false, rest)
  let (whole, rest) := digits input
  if whole.isEmpty || (whole.head? = some '0' && 1 < whole.length) then none
  else
    let (places, rest) ← fractionDigits rest
    let (power, rest) ← exponent rest
    let value :=
      if places.isEmpty ∧ power.isNone then integerOf negative (decimalValue whole)
      else .float (.ofScientific negative (decimalValue (whole ++ places))
        (power.getD 0 - places.length))
    if care = .kept && !value.toBinary64.isFinite then none else some (value, rest)

/-- A value that is neither an array nor an object. -/
def scalar (care : Care) : Reader Json
  | 'n' :: 'u' :: 'l' :: 'l' :: rest => some (.null, rest)
  | 't' :: 'r' :: 'u' :: 'e' :: rest => some (.bool true, rest)
  | 'f' :: 'a' :: 'l' :: 's' :: 'e' :: rest => some (.bool false, rest)
  | '"' :: rest => (stringBody care none [] rest).map fun (text, rest) =>
      (.string (String.ofList text), rest)
  | input => (number care input).map fun (value, rest) => (.number value, rest)

/-- At most `fuel` things between commas up to the closing mark; the first is due now. -/
def items (item : Reader α) (close : Char) : Nat → List α → Reader (List α)
  | 0, _, _ => none
  | fuel + 1, done, input =>
      match item (skipBlanks input) with
      | none => none
      | some (thing, rest) =>
          match skipBlanks rest with
          | [] => none
          | mark :: rest =>
              if mark = ',' then items item close fuel (thing :: done) rest
              else if mark = close then some ((thing :: done).reverse, rest)
              else none

/-- The rest of a bracketed list of at most `fuel` things after its opening mark. -/
def bracketed (fuel : Nat) (item : Reader α) (close : Char) : Reader (List α) := fun input =>
  match skipBlanks input with
  | [] => none
  | mark :: rest =>
      if mark = close then some ([], rest)
      else items item close fuel [] (mark :: rest)

/-- A key, a colon and a value, which may depend on the key. -/
def entry (care : Care) (value : String → Reader α) : Reader (String × α)
  | '"' :: rest => do
      let (key, rest) ← stringBody care none [] rest
      match skipBlanks rest with
      | ':' :: rest =>
          let key := String.ofList key
          let (value, rest) ← value key (skipBlanks rest)
          some ((key, value), rest)
      | _ => none
  | _ => none

/-- A value with at most `depth` arrays and objects around one another. No list in a text has more
things than the text has characters, so its length is `fuel` enough. -/
def value (care : Care) (fuel : Nat) : Nat → Reader Json
  | 0 => fun input =>
      match input with
      | '[' :: _ => none
      | '{' :: _ => none
      | _ => scalar care input
  | depth + 1 => fun input =>
      match input with
      | '[' :: rest =>
          (bracketed fuel (value care fuel depth) ']' rest).map
            fun (items, rest) => (.array items, rest)
      | '{' :: rest =>
          (bracketed fuel (entry care fun _ => value care fuel depth) '}' rest).map
            fun (entries, rest) => (.object (distinct entries), rest)
      | _ => scalar care input

/-- A whole text read by one reader, blanks around it allowed. -/
def whole (reader : Reader α) (text : String) : Option α :=
  match reader (skipBlanks text.toList) with
  | some (thing, rest) => if (skipBlanks rest).isEmpty then some thing else none
  | none => none

end Reader

/-- The deepest nesting of arrays and objects that is accepted. -/
def maxDepth : Nat := 127

/-- The value of a whole text. -/
def read? (text : String) : Option Json :=
  Reader.whole (Reader.value .kept text.length maxDepth) text

/-- The value a text begins with. -/
def readLeading? (text : String) : Option Json :=
  (Reader.value .kept text.length maxDepth (Reader.skipBlanks text.toList)).map Prod.fst

end CampusQuery.Json
