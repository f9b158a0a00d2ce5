import CampusQuery.Dataset.Store
import CampusQuery.FileTree
import CampusQuery.Json.Reader

/-!
# Seed files

A seed file is a JSON object with an id, a kind and a list of records. A
directory of seed files is read as a whole, in the order of the file names,
before the first dataset is added.
-/

namespace CampusQuery

/-- The content of a seed file. -/
structure SeedFile where
  id : String
  kind : Kind
  records : Json

namespace SeedFile

/-- A part of a seed file. Only its key or place says whether it is a kind. -/
inductive Part where
  | kind (kind : Kind)
  | value (value : Json)

/-- A kind by its exact name, or as the one key of an object that holds `null`. -/
def kindReader (fuel : Nat) : Text.Reader Kind
  | '\x7b' :: rest => do
      let (entries, rest) ← Json.Reader.bracketed fuel
        (Json.Reader.entry .kept fun _ => Json.Reader.scalar .kept) '\x7d' rest
      match entries with
      | [(name, .null)] => (Kind.ofName? name).map fun kind => (kind, rest)
      | _ => none
  | input => do
      match ← Json.Reader.scalar .kept input with
      | (.string name, rest) => (Kind.ofName? name).map fun kind => (kind, rest)
      | _ => none

/-- A part that is not a kind; it stands inside the seed file. -/
def valueReader (fuel : Nat) : Text.Reader Json := Json.Reader.value .kept fuel (Json.maxDepth - 1)

/-- The value of a key of the object form; the values of other keys are only skipped. -/
def partReader (fuel : Nat) (key : String) : Text.Reader Part := fun input =>
  match key with
  | "kind" => (kindReader fuel input).map fun (kind, rest) => (.kind kind, rest)
  | "id" | "records" => (valueReader fuel input).map fun (value, rest) => (.value value, rest)
  | _ => (Json.Reader.value .skipped fuel fuel input).map fun (value, rest) => (.value value, rest)

/-- The only value of a key; a key given twice has none. -/
def only? (key : String) (entries : List (String × α)) : Option α :=
  match entries.filter fun entry => entry.1 = key with
  | [(_, value)] => some value
  | _ => none

/-- The seed file of the entries of its object form. -/
def ofEntries? (entries : List (String × Part)) : Option SeedFile :=
  match only? "id" entries, only? "kind" entries, only? "records" entries with
  | some (.value (.string id)), some (.kind kind), some (.value records) => some ⟨id, kind, records⟩
  | _, _, _ => none

def objectReader (fuel : Nat) : Text.Reader SeedFile
  | '\x7b' :: rest => do
      let (entries, rest) ← Json.Reader.bracketed fuel
        (Json.Reader.entry .kept (partReader fuel)) '\x7d' rest
      (ofEntries? entries).map fun seed => (seed, rest)
  | _ => none

def skipComma (input : List Char) : Option (List Char) :=
  (Text.after? ',' (Json.Reader.skipBlanks input)).map Json.Reader.skipBlanks

/-- The array form: the three parts in order. -/
def arrayReader (fuel : Nat) : Text.Reader SeedFile
  | '[' :: rest => do
      let (id, rest) ← valueReader fuel (Json.Reader.skipBlanks rest)
      let (kind, rest) ← kindReader fuel (← skipComma rest)
      let (records, rest) ← valueReader fuel (← skipComma rest)
      let rest ← Text.after? ']' (Json.Reader.skipBlanks rest)
      match id with
      | .string id => some (⟨id, kind, records⟩, rest)
      | _ => none
  | _ => none

def read? (text : String) : Option SeedFile :=
  Json.Reader.whole
    (fun input => (objectReader text.length input).orElse fun _ => arrayReader text.length input)
    text

end SeedFile

namespace Dataset

def readFile (tree : FileTree) (path : String) : Except DatasetError Dataset :=
  match tree.read path with
  | .error fault => .error (.unreadable path fault.message)
  | .ok text =>
      match SeedFile.read? text with
      | none => .error (.unparsable path "not a seed file")
      | some seed => ofJson seed.id seed.kind seed.records

/-- Whether a file name ends in `.json` after at least one other character. -/
def isSeedName (name : String) : Bool := name.endsWith ".json" && name != ".json"

/-- The names of the seed files among a directory's names, in order. -/
def seedNames (names : List String) : List String :=
  (names.filter isSeedName).mergeSort fun a b => decide (a ≤ b)

/-- The datasets of all seed files of a directory, or the error of the first faulty file. -/
def readDirectory (tree : FileTree) (directory : String) : Except DatasetError (List Dataset) :=
  match tree.list directory with
  | .error fault => .error (.unreadable directory fault.message)
  | .ok names => ((seedNames names).map (FileTree.join directory)).mapM (readFile tree)

end Dataset

namespace Store

/-- Add every dataset of a directory. The count is given if all were added; on a refused dataset
those before it stay, and on a faulty file nothing is added. -/
def loadDirectory (store : Store) (tree : FileTree) (directory : String) :
    Store × Except DatasetError Nat :=
  match Dataset.readDirectory tree directory with
  | .error error => (store, .error error)
  | .ok datasets =>
      match store.addAll datasets with
      | (store, some error) => (store, .error error)
      | (store, none) => (store, .ok datasets.length)

end Store

end CampusQuery
