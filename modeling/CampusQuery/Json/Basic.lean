import CampusQuery.Numeric.Notation

/-!
# JSON values

Objects keep their entries in document order. A key written twice keeps the
place of its first entry and the value of its last, so the keys of an object
built by `Json.object` are distinct.
-/

namespace CampusQuery

open Numeric

/-- A JSON number: an integer of 64 bits as written, or the nearest binary64 number. -/
inductive JsonNumber where
  | integer (value : Int)
  | float (value : Binary64)
deriving DecidableEq, Repr

namespace JsonNumber

/-- The binary64 number nearest to a JSON number. -/
def toBinary64 : JsonNumber → Binary64
  | .integer value => .ofInt value
  | .float value => value

end JsonNumber

/-- A JSON value. -/
inductive Json where
  | null
  | bool (value : Bool)
  | number (value : JsonNumber)
  | string (value : String)
  | array (items : List Json)
  | object (entries : List (String × Json))
deriving Repr

namespace Json

instance : Inhabited Json := ⟨.null⟩

/-- Replace the value of a key, or add the key at the end. -/
def putEntry (key : String) (value : α) : List (String × α) → List (String × α)
  | [] => [(key, value)]
  | entry :: rest =>
      if entry.1 = key then (key, value) :: rest else entry :: putEntry key value rest

/-- Entries as written to entries with distinct keys. -/
def distinct (entries : List (String × α)) : List (String × α) :=
  entries.foldl (fun known entry => putEntry entry.1 entry.2 known) []

def lookup? (key : String) : List (String × α) → Option α
  | [] => none
  | entry :: rest => if entry.1 = key then some entry.2 else lookup? key rest

def ofNat (n : Nat) : Json := .number (.integer n)

def ofBinary64 (x : Binary64) : Json := .number (.float x)

/-- Reading an entry just put gives its value. -/
theorem lookup?_putEntry_self (key : String) (value : α) (entries : List (String × α)) :
    lookup? key (putEntry key value entries) = some value := by
  induction entries with
  | nil => simp [putEntry, lookup?]
  | cons entry rest ih =>
      by_cases hkey : entry.1 = key <;> simp [putEntry, lookup?, hkey, ih]

/-- Putting an entry leaves the other keys alone. -/
theorem lookup?_putEntry_of_ne {key other : String} (hne : other ≠ key) (value : α)
    (entries : List (String × α)) :
    lookup? other (putEntry key value entries) = lookup? other entries := by
  induction entries with
  | nil => simp [putEntry, lookup?, hne.symm]
  | cons entry rest ih =>
      by_cases hkey : entry.1 = key
      · simp [putEntry, lookup?, hkey, hne.symm]
      · simp [putEntry, lookup?, hkey, ih]

end Json

end CampusQuery
