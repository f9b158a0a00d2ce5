import CampusQuery.Dataset.Basic

/-!
# The dataset store

Datasets in the order in which they were added. An operation that fails leaves
the store as it was, and `Store.Reachable` collects the stores that operations
can build.
-/

namespace CampusQuery

/-- All added datasets, oldest first. -/
structure Store where
  datasets : List Dataset
deriving DecidableEq, Repr

namespace Store

def empty : Store := ⟨[]⟩

instance : Inhabited Store := ⟨empty⟩

/-- The ids in the order of adding. -/
def ids (store : Store) : List String := store.datasets.map Dataset.id

def get? (store : Store) (id : String) : Option Dataset :=
  store.datasets.find? fun dataset => dataset.id = id

/-- Summaries in the order of adding. -/
def list (store : Store) : List DatasetInfo := store.datasets.map Dataset.info

def size (store : Store) : Nat := store.datasets.length

def isEmpty (store : Store) : Bool := store.datasets.isEmpty

def kindOf? (store : Store) (id : String) : Option Kind := (store.get? id).map Dataset.kind

def recordsOf? (store : Store) (id : String) : Option (List Record) :=
  (store.get? id).map Dataset.records

def registry (store : Store) : Registry := store.kindOf?

def add (store : Store) (dataset : Dataset) : Except DatasetError Store :=
  if (store.get? dataset.id).isSome then .error (.alreadyExists dataset.id)
  else if dataset.records.isEmpty then .error (.empty dataset.id)
  else .ok ⟨store.datasets ++ [dataset]⟩

/-- Remove the dataset of an id; the others keep their order. -/
def remove (store : Store) (id : String) : Except DatasetError Store :=
  if !isValidId id then .error (.invalidId id)
  else if (store.get? id).isNone then .error (.notFound id)
  else .ok ⟨store.datasets.filter fun dataset => dataset.id ≠ id⟩

/-- Add datasets one by one up to the first that is refused; those before it stay. -/
def addAll (store : Store) : List Dataset → Store × Option DatasetError
  | [] => (store, none)
  | dataset :: rest =>
      match store.add dataset with
      | .error error => (store, some error)
      | .ok store => store.addAll rest

/-- What holds of every store: distinct ids, and datasets that were checked and hold records. -/
structure WellFormed (store : Store) : Prop where
  distinct_ids : store.ids.Nodup
  well_formed : ∀ dataset ∈ store.datasets, dataset.WellFormed
  inhabited : ∀ dataset ∈ store.datasets, dataset.records ≠ []

/-! ## What the operations do -/

theorem get?_isSome_iff {store : Store} {id : String} :
    (store.get? id).isSome = true ↔ id ∈ store.ids := by
  simp [get?, ids, List.find?_isSome]

theorem mem_of_get? {store : Store} {id : String} {dataset : Dataset}
    (hget : store.get? id = some dataset) : dataset ∈ store.datasets ∧ dataset.id = id := by
  refine ⟨List.mem_of_find?_eq_some hget, ?_⟩
  simpa using List.find?_some hget

/-- A dataset is added exactly when its id is new and it holds records; it becomes the last. -/
theorem add_eq_ok_iff {store next : Store} {dataset : Dataset} :
    store.add dataset = .ok next ↔
      dataset.id ∉ store.ids ∧ dataset.records ≠ [] ∧ next = ⟨store.datasets ++ [dataset]⟩ := by
  unfold add
  by_cases hmem : dataset.id ∈ store.ids
  · simp [get?_isSome_iff, hmem]
  · by_cases hempty : dataset.records = []
    · simp [get?_isSome_iff, hmem, hempty]
    · simp only [get?_isSome_iff, hmem, if_false, List.isEmpty_iff, hempty, Except.ok.injEq,
        not_false_eq_true, ne_eq, true_and]
      exact eq_comm

/-- A dataset is refused because its id is taken, or else because it holds no records. -/
theorem add_eq_error_iff {store : Store} {dataset : Dataset} {error : DatasetError} :
    store.add dataset = .error error ↔
      dataset.id ∈ store.ids ∧ error = .alreadyExists dataset.id ∨
        dataset.id ∉ store.ids ∧ dataset.records = [] ∧ error = .empty dataset.id := by
  unfold add
  by_cases hmem : dataset.id ∈ store.ids
  · simp only [get?_isSome_iff, hmem, if_true, Except.error.injEq, true_and, not_true_eq_false,
      false_and, or_false]
    exact eq_comm
  · by_cases hempty : dataset.records = []
    · simp only [get?_isSome_iff, hmem, if_false, hempty, List.isEmpty_nil, if_true,
        Except.error.injEq, false_and, not_false_eq_true, true_and, false_or]
      exact eq_comm
    · simp [get?_isSome_iff, hmem, hempty]

/-- A dataset is removed exactly when its id is valid and present; the others stay. -/
theorem remove_eq_ok_iff {store next : Store} {id : String} :
    store.remove id = .ok next ↔
      isValidId id = true ∧ id ∈ store.ids ∧
        next = ⟨store.datasets.filter fun dataset => dataset.id ≠ id⟩ := by
  have hnone : (store.get? id).isNone = !(store.get? id).isSome := by
    cases store.get? id <;> rfl
  unfold remove
  by_cases hvalid : isValidId id = true
  · by_cases hmem : id ∈ store.ids
    · have hsome := get?_isSome_iff.2 hmem
      simp only [hvalid, hnone, hsome, hmem, Bool.not_true, Bool.false_eq_true, if_false,
        Except.ok.injEq, true_and]
      exact eq_comm
    · have hsome : (store.get? id).isSome = false :=
        Bool.eq_false_iff.2 (mt get?_isSome_iff.1 hmem)
      simp [hvalid, hmem, hnone, hsome]
  · simp [hvalid]

/-- Nothing is removed for an id that is no id, or else that no dataset has. -/
theorem remove_eq_error_iff {store : Store} {id : String} {error : DatasetError} :
    store.remove id = .error error ↔
      isValidId id = false ∧ error = .invalidId id ∨
        isValidId id = true ∧ id ∉ store.ids ∧ error = .notFound id := by
  unfold remove
  cases hvalid : isValidId id with
  | false =>
      simp only [Bool.not_false, if_true, Except.error.injEq, true_and, Bool.false_eq_true,
        false_and, or_false]
      exact eq_comm
  | true =>
      rw [← get?_isSome_iff]
      cases store.get? id with
      | none => simpa using eq_comm
      | some dataset => simp

theorem ids_add {store next : Store} {dataset : Dataset} (hadd : store.add dataset = .ok next) :
    next.ids = store.ids ++ [dataset.id] := by
  obtain ⟨_, _, rfl⟩ := add_eq_ok_iff.1 hadd
  simp [ids]

theorem ids_remove {store next : Store} {id : String} (hremove : store.remove id = .ok next) :
    next.ids = store.ids.filter (· ≠ id) := by
  obtain ⟨_, _, rfl⟩ := remove_eq_ok_iff.1 hremove
  simp [ids, List.filter_map, Function.comp_def]

namespace WellFormed

theorem empty : Store.empty.WellFormed := by
  constructor <;> simp [Store.empty, ids]

theorem add {store next : Store} {dataset : Dataset} (hstore : store.WellFormed)
    (hdataset : dataset.WellFormed) (hadd : store.add dataset = .ok next) : next.WellFormed := by
  obtain ⟨hnew, hrecords, rfl⟩ := add_eq_ok_iff.1 hadd
  constructor
  · rw [ids_add hadd, List.nodup_append]
    refine ⟨hstore.distinct_ids, by simp, fun a ha b hb hab => ?_⟩
    rw [List.mem_singleton] at hb
    exact hnew (hb ▸ hab ▸ ha)
  · intro other hother
    rcases List.mem_append.1 hother with hold | hlast
    · exact hstore.well_formed other hold
    · rw [List.mem_singleton.1 hlast]; exact hdataset
  · intro other hother
    rcases List.mem_append.1 hother with hold | hlast
    · exact hstore.inhabited other hold
    · rw [List.mem_singleton.1 hlast]; exact hrecords

theorem remove {store next : Store} {id : String} (hstore : store.WellFormed)
    (hremove : store.remove id = .ok next) : next.WellFormed := by
  obtain ⟨_, _, rfl⟩ := remove_eq_ok_iff.1 hremove
  constructor
  · rw [ids_remove hremove]
    exact hstore.distinct_ids.sublist List.filter_sublist
  · exact fun dataset hmem => hstore.well_formed dataset (List.mem_filter.1 hmem).1
  · exact fun dataset hmem => hstore.inhabited dataset (List.mem_filter.1 hmem).1

theorem addAll {store : Store} {datasets : List Dataset} (hstore : store.WellFormed)
    (hdatasets : ∀ dataset ∈ datasets, dataset.WellFormed) :
    (store.addAll datasets).1.WellFormed := by
  induction datasets generalizing store with
  | nil => exact hstore
  | cons dataset rest ih =>
      unfold Store.addAll
      cases hadd : store.add dataset with
      | error error => exact hstore
      | ok next =>
          exact ih (hstore.add (hdatasets dataset List.mem_cons_self) hadd)
            fun other hmem => hdatasets other (List.mem_cons_of_mem _ hmem)

end WellFormed

end Store

end CampusQuery
