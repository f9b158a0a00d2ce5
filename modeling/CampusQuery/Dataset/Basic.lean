import CampusQuery.Dataset.Error
import CampusQuery.Record.Decoding
import CampusQuery.Text.Blank

/-!
# Datasets

A dataset is a named list of records of one kind whose numbers are finite. The
constructors check all of it; `Dataset.WellFormed` says what they establish.
-/

namespace CampusQuery

/-- An id shows something and holds no separator, so qualified names split back. -/
def isValidId (id : String) : Bool := !Text.isBlankText id && !hasSeparator id

def checkId (id : String) : Except DatasetError Unit :=
  if isValidId id then .ok () else .error (.invalidId id)

/-- A named list of records of one kind. -/
structure Dataset where
  id : String
  kind : Kind
  records : List Record
deriving DecidableEq, Repr

/-- A dataset without its records. -/
structure DatasetInfo where
  id : String
  kind : Kind
  rows : Nat
deriving DecidableEq, Repr

def DatasetInfo.toJson (info : DatasetInfo) : Json :=
  .object [
    ("id", .string info.id),
    ("kind", .string info.kind.name),
    ("numRows", .ofNat info.rows)]

namespace Dataset

/-- What holds of every dataset that was built with its checks. -/
structure WellFormed (dataset : Dataset) : Prop where
  valid_id : isValidId dataset.id = true
  of_kind : ∀ record ∈ dataset.records, record.kind = dataset.kind
  finite : ∀ record ∈ dataset.records, record.hasFiniteNumbers = true

/-- Check records against a kind, the first at position `index`. -/
def checkRecords (id : String) (kind : Kind) (index : Nat) :
    List Record → Except DatasetError Unit
  | [] => .ok ()
  | record :: rest =>
      if record.kind ≠ kind then .error (.kindMismatch id index kind)
      else if !record.hasFiniteNumbers then
        .error (.invalidRecord ("record " ++ toString index ++ " in dataset " ++ id
          ++ " has a non-finite numeric field"))
      else checkRecords id kind (index + 1) rest

/-- Build a dataset, checking its id and then its records in order. -/
def create (id : String) (kind : Kind) (records : List Record) : Except DatasetError Dataset := do
  checkId id
  checkRecords id kind 0 records
  .ok ⟨id, kind, records⟩

/-- Build a dataset from a JSON list of records; the list is read before the id is checked. -/
def ofJson (id : String) (kind : Kind) (records : Json) : Except DatasetError Dataset :=
  match Record.decodeList kind records with
  | .ok records => create id kind records
  | .error error => .error (.invalidRecord error.message)

def info (dataset : Dataset) : DatasetInfo := ⟨dataset.id, dataset.kind, dataset.records.length⟩

/-- Records that pass the check are of the kind and hold finite numbers. -/
theorem checkRecords_ok_iff {id : String} {kind : Kind} {index : Nat} {records : List Record} :
    checkRecords id kind index records = .ok () ↔
      ∀ record ∈ records, record.kind = kind ∧ record.hasFiniteNumbers = true := by
  induction records generalizing index with
  | nil => simp [checkRecords]
  | cons record rest ih =>
      unfold checkRecords
      by_cases hkind : record.kind = kind
      · by_cases hfinite : record.hasFiniteNumbers = true
        · simp [hkind, hfinite, ih]
        · simp [hkind, hfinite]
      · simp [hkind]

/-- Datasets are created exactly from valid ids and fitting records, and hold what was given. -/
theorem create_eq_ok_iff {id : String} {kind : Kind} {records : List Record} {dataset : Dataset} :
    create id kind records = .ok dataset ↔
      dataset = ⟨id, kind, records⟩ ∧ dataset.WellFormed := by
  unfold create checkId
  by_cases hid : isValidId id = true
  · simp only [hid, if_true, bind, Except.bind]
    cases hcheck : checkRecords id kind 0 records with
    | error error =>
        simp only [reduceCtorEq, false_iff, not_and]
        rintro rfl hwell
        have hok : checkRecords id kind 0 records = .ok () := checkRecords_ok_iff.2
          fun record hmem => ⟨hwell.of_kind record hmem, hwell.finite record hmem⟩
        simp [hcheck] at hok
    | ok _ =>
        have hall := checkRecords_ok_iff.1 hcheck
        simp only [Except.ok.injEq]
        constructor
        · rintro rfl
          exact ⟨rfl, hid, fun r h => (hall r h).1, fun r h => (hall r h).2⟩
        · rintro ⟨rfl, _⟩; rfl
  · simp only [hid, bind, Except.bind]
    simp only [Bool.false_eq_true, if_false, reduceCtorEq, false_iff, not_and]
    rintro rfl hwell
    exact hid hwell.valid_id

end Dataset

end CampusQuery
