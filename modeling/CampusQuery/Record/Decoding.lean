import CampusQuery.Record.Basic
import CampusQuery.Json.Basic
import CampusQuery.Text.Quoted

/-!
# Records and JSON

A record is written as an object in the order of its kind's layout. It is read
from such an object with its keys in any order and any further keys, or from the
array of its values in layout order.
-/

namespace CampusQuery

open Numeric

/-- What was wanted where a JSON value did not fit. -/
inductive Wanted where
  | text
  | number
  | record (kind : Kind)
  | list
deriving DecidableEq, Repr

/-- Why a JSON value is not a list of records. -/
inductive DecodeError where
  | wrongType (found : Json) (wanted : Wanted)
  | missingField (name : String)
  | tooShort (length : Nat) (kind : Kind)
  | tooLong (length : Nat)

namespace Wanted

def message : Wanted → String
  | .text => "a string"
  | .number => "f64"
  | .record .sections => "struct Section"
  | .record .rooms => "struct Room"
  | .list => "a sequence"

end Wanted

namespace DecodeError

/-- A number in a message: its JSON form, which always shows a fraction or an exponent. -/
def floatText (x : Binary64) : String := x.json?.getD x.plain

def foundMessage : Json → String
  | .null => "null"
  | .bool value => "boolean " ++ tick ++ (if value then "true" else "false") ++ tick
  | .number (.integer value) => "integer " ++ tick ++ toString value ++ tick
  | .number (.float value) => "floating point " ++ tick ++ floatText value ++ tick
  | .string value => "string " ++ Text.quoted value
  | .array _ => "sequence"
  | .object _ => "map"
where
  tick : String := "\x60"

def message : DecodeError → String
  | .wrongType found wanted =>
      "invalid type: " ++ foundMessage found ++ ", expected " ++ wanted.message
  | .missingField name => "missing field \x60" ++ name ++ "\x60"
  | .tooShort length kind =>
      "invalid length " ++ toString length ++ ", expected " ++ (Wanted.record kind).message
        ++ " with " ++ toString kind.layout.length ++ " elements"
  | .tooLong length =>
      "invalid length " ++ toString length ++ ", expected fewer elements in array"

end DecodeError

namespace Record

/-- A JSON value as the value of a field. -/
def decodeValue (f : Field) (value : Json) : Except DecodeError Value :=
  match f.fieldType, value with
  | .text, .string text => .ok (.text text)
  | .text, other => .error (.wrongType other .text)
  | .numeric, .number x => .ok (.number x.toBinary64)
  | .numeric, other => .error (.wrongType other .number)

/-- The first value found for a field. -/
def valueOf? (f : Field) (values : List (Field × Value)) : Option Value :=
  (values.find? fun entry => entry.1 = f).map Prod.snd

/-- The record of a kind from values of all its fields. -/
def ofValues (kind : Kind) (values : List (Field × Value)) : Record :=
  ofFields kind (fun f => ((valueOf? f values).bind Value.text?).getD "")
    (fun f => ((valueOf? f values).bind Value.number?).getD 0)

/-- The values of an object's entries; keys that name no field are passed over. -/
def decodeEntries (kind : Kind) : List (String × Json) → Except DecodeError (List (Field × Value))
  | [] => .ok []
  | (key, value) :: rest =>
      match kind.field? key with
      | none => decodeEntries kind rest
      | some f => do
          let value ← decodeValue f value
          let values ← decodeEntries kind rest
          .ok ((f, value) :: values)

/-- The values of an array's items for fields in order; `position` items came before. -/
def decodeItems (kind : Kind) (position : Nat) :
    List Field → List Json → Except DecodeError (List (Field × Value))
  | [], [] => .ok []
  | [], extra => .error (.tooLong (position + extra.length))
  | _ :: _, [] => .error (.tooShort position kind)
  | f :: fields, item :: items => do
      let value ← decodeValue f item
      let values ← decodeItems kind (position + 1) fields items
      .ok ((f, value) :: values)

def decode (kind : Kind) : Json → Except DecodeError Record
  | .object entries => do
      let values ← decodeEntries kind entries
      match kind.layout.find? fun f => (valueOf? f values).isNone with
      | some f => .error (.missingField f.bareName)
      | none => .ok (ofValues kind values)
  | .array items => do
      let values ← decodeItems kind 0 kind.layout items
      .ok (ofValues kind values)
  | other => .error (.wrongType other (.record kind))

/-- Read a list of records of a kind; the first faulty record decides the error. -/
def decodeList (kind : Kind) : Json → Except DecodeError (List Record)
  | .array items => items.mapM (decode kind)
  | other => .error (.wrongType other .list)

def encodeValue : Value → Json
  | .text value => .string value
  | .number value => .ofBinary64 value

/-- A record as an object in layout order. -/
def encode (record : Record) : Json :=
  .object (record.kind.layout.filterMap fun f =>
    (record.get? f).map fun value => (f.bareName, encodeValue value))

end Record

end CampusQuery
