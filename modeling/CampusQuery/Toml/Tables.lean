import CampusQuery.Json.Basic

/-!
# TOML tables

A TOML text says what a table holds in several places, and how a table came
about decides what may still be added to it. `Item` keeps that history while a
text is read; `Item.freeze` forgets it.
-/

namespace CampusQuery

open Numeric

/-- A TOML value. -/
inductive Toml where
  | string (value : String)
  | integer (value : Int)
  | float (value : Binary64)
  | boolean (value : Bool)
  | datetime
  | array (items : List Toml)
  | table (entries : List (String × Toml))
deriving Repr

namespace Toml

/-- How a table came about: by its own header, on the way to another header, or as the front
of a dotted key. -/
inductive Origin where
  | header
  | implied
  | dotted
deriving DecidableEq, Repr

/-- A value, table or array of tables while its text is being read. -/
inductive Item where
  | value (value : Toml)
  | table (origin : Origin) (entries : List (String × Item))
  | tables (elements : List (List (String × Item)))

/-- The entries of a table while its text is being read. -/
abbrev Entries := List (String × Item)

mutual

def Item.freeze : Item → Toml
  | .value value => value
  | .table _ entries => .table (freezeEntries entries)
  | .tables elements => .array (freezeElements elements)

def freezeEntries : List (String × Item) → List (String × Toml)
  | [] => []
  | (key, item) :: rest => (key, item.freeze) :: freezeEntries rest

def freezeElements : List (List (String × Item)) → List Toml
  | [] => []
  | entries :: rest => .table (freezeEntries entries) :: freezeElements rest

end

/-- Change the last element of a list, if there is one. -/
def changeLast (change : α → Option α) : List α → Option (List α)
  | [] => none
  | [last] => (change last).map ([·])
  | first :: rest => (changeLast change rest).map (first :: ·)

/-- Give a dotted key a value. Every key is given once; a dotted key may only go on through
tables that have no header, and may only end in one that dotted keys made. -/
def assign (value : Toml) (mayEnd : Bool) : List String → Entries → Option Entries
  | [], _ => none
  | [key], entries =>
      if mayEnd && (Json.lookup? key entries).isNone then some (entries ++ [(key, .value value)])
      else none
  | key :: path, entries =>
      match Json.lookup? key entries with
      | none => do
          let inner ← assign value true path []
          some (entries ++ [(key, .table .dotted inner)])
      | some (.value _) => none
      | some (.tables elements) => do
          let elements ← changeLast (assign value false path) elements
          some (Json.putEntry key (.tables elements) entries)
      | some (.table .header _) => none
      | some (.table origin inner) => do
          let inner ← assign value (origin = .dotted) path inner
          some (Json.putEntry key (.table origin inner) entries)

/-- Change the table at a header's path; tables on the way are made if they are not there, and
the last table of an array stands for the array. -/
def within (change : Entries → Option Entries) : List String → Entries → Option Entries
  | [], entries => change entries
  | key :: path, entries =>
      match Json.lookup? key entries with
      | none => do
          let inner ← within change path []
          some (entries ++ [(key, .table .implied inner)])
      | some (.value _) => none
      | some (.tables elements) => do
          let elements ← changeLast (within change path) elements
          some (Json.putEntry key (.tables elements) entries)
      | some (.table origin inner) => do
          let inner ← within change path inner
          some (Json.putEntry key (.table origin inner) entries)

/-- Assignments in the order of the text. -/
def assignAll (assignments : List (List String × Toml)) (entries : Entries) : Option Entries :=
  assignments.foldlM (fun entries assignment => assign assignment.2 true assignment.1 entries)
    entries

/-- The table under a header; one that was only implied so far gets its header now. -/
def openTable (assignments : List (List String × Toml)) (key : String) (entries : Entries) :
    Option Entries :=
  match Json.lookup? key entries with
  | none => do
      let inner ← assignAll assignments []
      some (entries ++ [(key, .table .header inner)])
  | some (.table .implied inner) => do
      let inner ← assignAll assignments inner
      some (Json.putEntry key (.table .header inner) entries)
  | some _ => none

/-- One more table of an array of tables. -/
def openElement (assignments : List (List String × Toml)) (key : String) (entries : Entries) :
    Option Entries := do
  let element ← assignAll assignments []
  match Json.lookup? key entries with
  | none => some (entries ++ [(key, .tables [element])])
  | some (.tables elements) => some (Json.putEntry key (.tables (elements ++ [element])) entries)
  | some _ => none

end Toml

end CampusQuery
