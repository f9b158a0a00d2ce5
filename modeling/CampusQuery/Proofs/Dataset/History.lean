import CampusQuery.Dataset.Operation
import CampusQuery.Proofs.Query.References
import Mathlib.Data.List.Nodup

/-!
# What a store holds

The log of a run says which datasets were added and which ids were removed, and
`Store.standing` reads off it what should be there: the datasets added and not
removed since, in the order of their additions. After every run the store holds
exactly these, shows them the same way whichever view is asked, and takes or
refuses the next operation as such a list would.
-/

namespace CampusQuery

namespace Store

/-! ## The log of a run -/

/-- Something that happened to a store. -/
inductive Event where
  | added (dataset : Dataset)
  | removed (id : String)
deriving DecidableEq, Repr

/-- The additions that datasets in order lead to; the first that is refused ends them. -/
def additions (store : Store) : List Dataset → List Event
  | [] => []
  | dataset :: rest =>
      match store.add dataset with
      | .ok next => .added dataset :: next.additions rest
      | .error _ => []

/-- What an operation makes happen. One that fails makes nothing happen, except that a directory
adds the datasets before the refused one. -/
def events (store : Store) : Operation → List Event
  | .add dataset _ => store.additions [dataset]
  | .remove id =>
      match store.remove id with
      | .ok _ => [.removed id]
      | .error _ => []
  | .load tree directory =>
      match Dataset.readDirectory tree directory with
      | .ok datasets => store.additions datasets
      | .error _ => []

/-- What operations one after another make happen. -/
def log (store : Store) : List Operation → List Event
  | [] => []
  | operation :: rest => store.events operation ++ (store.perform operation).1.log rest

/-- The datasets that were added and whose id was not removed later, in the order in which they
were added. -/
def standing : List Event → List Dataset
  | [] => []
  | .added dataset :: later =>
      if .removed dataset.id ∈ later then standing later else dataset :: standing later
  | .removed _ :: later => standing later

theorem standing_append_added (past : List Event) (dataset : Dataset) :
    standing (past ++ [.added dataset]) = standing past ++ [dataset] := by
  induction past with
  | nil => simp [standing]
  | cons event later ih =>
      cases event with
      | removed id => exact ih
      | added first =>
          -- an addition is no removal, so it decides nothing about earlier additions
          have hlater : Event.removed first.id ∈ later ++ [.added dataset] ↔
              .removed first.id ∈ later := by simp
          rw [List.cons_append, standing, standing, ih]
          simp only [hlater]
          split
          · rfl
          · rfl

theorem standing_append_removed (past : List Event) (id : String) :
    standing (past ++ [.removed id]) = (standing past).filter fun dataset => dataset.id ≠ id := by
  induction past with
  | nil => rfl
  | cons event later ih =>
      cases event with
      | removed other => exact ih
      | added first =>
          rw [List.cons_append, standing, standing, ih]
          by_cases hlater : .removed first.id ∈ later
          · rw [if_pos hlater, if_pos (List.mem_append_left _ hlater)]
          · by_cases hid : first.id = id
            · subst hid
              simp [hlater]
            · have hnone : Event.removed first.id ∉ later ++ [.removed id] := by simp [hlater, hid]
              rw [if_neg hlater, if_neg hnone, List.filter_cons_of_pos (by simpa using hid)]

/-- A dataset that is removed and added again moves to the end. -/
example (a b : Dataset) (hab : b.id ≠ a.id) :
    standing [.added a, .added b, .removed a.id, .added a] = [b, a] := by
  simp [standing, hab]

/-! ## Following a run -/

theorem datasets_addAll {store : Store} {past : List Event} (datasets : List Dataset)
    (hpast : store.datasets = standing past) :
    (store.addAll datasets).1.datasets = standing (past ++ store.additions datasets) := by
  induction datasets generalizing store past with
  | nil => simpa [addAll, additions] using hpast
  | cons dataset rest ih =>
      unfold addAll additions
      cases hadd : store.add dataset with
      | error error => simpa using hpast
      | ok next =>
          obtain ⟨-, -, rfl⟩ := add_eq_ok_iff.1 hadd
          have hnext : store.datasets ++ [dataset] = standing (past ++ [.added dataset]) := by
            rw [standing_append_added, ← hpast]
          simpa using ih hnext

theorem loadDirectory_eq_addAll {store : Store} {tree : FileTree} {directory : String}
    {datasets : List Dataset} (hread : Dataset.readDirectory tree directory = .ok datasets) :
    (store.loadDirectory tree directory).1 = (store.addAll datasets).1 := by
  unfold loadDirectory
  rw [hread]
  dsimp only
  split
  next hrefused => rw [hrefused]
  next hall => rw [hall]

theorem datasets_perform {store : Store} {past : List Event} (operation : Operation)
    (hpast : store.datasets = standing past) :
    (store.perform operation).1.datasets = standing (past ++ store.events operation) := by
  cases operation with
  | add dataset built =>
      have hadded := datasets_addAll [dataset] hpast
      rw [events, ← hadded, addAll]
      cases hadd : store.add dataset with
      | error error => rw [perform_add_of_error built hadd]
      | ok next =>
          rw [perform_add_of_ok built hadd]
          rfl
  | remove id =>
      cases hremove : store.remove id with
      | error error =>
          rw [perform_remove_of_error hremove]
          simpa [events, hremove] using hpast
      | ok next =>
          obtain ⟨-, -, rfl⟩ := remove_eq_ok_iff.1 hremove
          rw [perform_remove_of_ok hremove]
          simp only [events, hremove, standing_append_removed, ← hpast]
  | load tree directory =>
      change (store.loadDirectory tree directory).1.datasets = _
      cases hread : Dataset.readDirectory tree directory with
      | error error => simpa [events, loadDirectory, hread] using hpast
      | ok datasets =>
          rw [loadDirectory_eq_addAll hread, datasets_addAll datasets hpast]
          simp only [events, hread]

/-- After any run a store holds what stands in the log. -/
theorem datasets_performAll {store : Store} {past : List Event} (operations : List Operation)
    (hpast : store.datasets = standing past) :
    (store.performAll operations).datasets = standing (past ++ store.log operations) := by
  induction operations generalizing store past with
  | nil => simpa [performAll, log] using hpast
  | cons operation rest ih =>
      have hrest := ih (datasets_perform operation hpast)
      rwa [List.append_assoc] at hrest

/-! ## What holds of the datasets -/

/-- A store is sound: ids are distinct, show something and hold no separator, and every dataset
has records, all of its kind and with finite numbers only. -/
structure Sound (store : Store) : Prop where
  distinct_ids : store.ids.Nodup
  shown_ids : ∀ id ∈ store.ids, Text.isBlankText id = false
  whole_ids : ∀ id ∈ store.ids, separator ∉ id.toList
  filled : ∀ dataset ∈ store.datasets, dataset.records ≠ []
  of_kind : ∀ dataset ∈ store.datasets, ∀ record ∈ dataset.records, record.kind = dataset.kind
  finite : ∀ dataset ∈ store.datasets, ∀ record ∈ dataset.records,
    ∀ f x, record.get? f = some (.number x) → x.isFinite = true

/-- A store shows datasets: every view of it is that of their list. -/
structure Shows (store : Store) (datasets : List Dataset) : Prop where
  ids_eq : store.ids = datasets.map Dataset.id
  list_eq : store.list =
    datasets.map fun dataset => ⟨dataset.id, dataset.kind, dataset.records.length⟩
  size_eq : store.size = datasets.length
  isEmpty_iff : store.isEmpty = true ↔ datasets = []
  get?_iff : ∀ id dataset, store.get? id = some dataset ↔ dataset ∈ datasets ∧ dataset.id = id
  kindOf?_iff : ∀ id kind, store.kindOf? id = some kind ↔
    ∃ dataset ∈ datasets, dataset.id = id ∧ dataset.kind = kind
  recordsOf?_iff : ∀ id records, store.recordsOf? id = some records ↔
    ∃ dataset ∈ datasets, dataset.id = id ∧ dataset.records = records

/-- A store takes and gives up datasets as a list does. What is refused changes nothing. -/
structure ActsAsList (store : Store) : Prop where
  add_ok : ∀ (dataset : Dataset) (built : dataset.Built),
    dataset.id ∉ store.ids → dataset.records ≠ [] →
      store.perform (.add dataset built) =
        (⟨store.datasets ++ [dataset]⟩, .ok (.added (store.ids ++ [dataset.id])))
  add_error_iff : ∀ (dataset : Dataset) (built : dataset.Built) (error : DatasetError),
    (store.perform (.add dataset built)).2 = .error error ↔
      dataset.id ∈ store.ids ∧ error = .alreadyExists dataset.id ∨
        dataset.id ∉ store.ids ∧ dataset.records = [] ∧ error = .empty dataset.id
  add_unchanged : ∀ (dataset : Dataset) (built : dataset.Built) (error : DatasetError),
    (store.perform (.add dataset built)).2 = .error error →
      (store.perform (.add dataset built)).1 = store
  remove_ok : ∀ id ∈ store.ids, store.perform (.remove id) =
    (⟨store.datasets.filter fun dataset => dataset.id ≠ id⟩, .ok (.removed id))
  remove_unchanged : ∀ id error, (store.perform (.remove id)).2 = .error error →
    (store.perform (.remove id)).1 = store

theorem WellFormed.sound {store : Store} (hstore : store.WellFormed) : store.Sound := by
  have hvalid : ∀ id ∈ store.ids, isValidId id = true := by
    intro id hid
    obtain ⟨dataset, hdataset, rfl⟩ := List.mem_map.1 hid
    exact (hstore.well_formed dataset hdataset).valid_id
  simp only [isValidId, Bool.and_eq_true, Bool.not_eq_true'] at hvalid
  exact {
    distinct_ids := hstore.distinct_ids
    shown_ids := fun id hid => (hvalid id hid).1
    whole_ids := fun id hid => hasSeparator_eq_false_iff.1 (hvalid id hid).2
    filled := hstore.inhabited
    of_kind := fun dataset hdataset => (hstore.well_formed dataset hdataset).of_kind
    finite := fun dataset hdataset record hrecord =>
      Record.hasFiniteNumbers_iff.1 ((hstore.well_formed dataset hdataset).finite record hrecord) }

/-- An id finds the one dataset that has it. -/
theorem WellFormed.get?_eq_some_iff {store : Store} (hstore : store.WellFormed) {id : String}
    {dataset : Dataset} :
    store.get? id = some dataset ↔ dataset ∈ store.datasets ∧ dataset.id = id := by
  constructor
  · exact mem_of_get?
  · intro hdataset
    obtain ⟨hmem, rfl⟩ := hdataset
    have hid : dataset.id ∈ store.ids := List.mem_map_of_mem hmem
    obtain ⟨found, hfound⟩ := Option.isSome_iff_exists.1 (get?_isSome_iff.2 hid)
    obtain ⟨hfoundMem, hsame⟩ := mem_of_get? hfound
    rw [hfound, List.inj_on_of_nodup_map hstore.distinct_ids hfoundMem hmem hsame]

theorem WellFormed.shows {store : Store} (hstore : store.WellFormed) :
    store.Shows store.datasets where
  ids_eq := rfl
  list_eq := rfl
  size_eq := rfl
  isEmpty_iff := List.isEmpty_iff
  get?_iff _ _ := hstore.get?_eq_some_iff
  kindOf?_iff _ _ := by
    simp only [kindOf?, Option.map_eq_some_iff, hstore.get?_eq_some_iff, and_assoc]
  recordsOf?_iff _ _ := by
    simp only [recordsOf?, Option.map_eq_some_iff, hstore.get?_eq_some_iff, and_assoc]

theorem Sound.actsAsList {store : Store} (hstore : store.Sound) : store.ActsAsList where
  add_ok dataset built hnew hfilled := by
    have hadd := add_eq_ok_iff.2 ⟨hnew, hfilled, rfl⟩
    rw [perform_add_of_ok built hadd, ids_add hadd]
  add_error_iff dataset built error := by
    rw [← add_eq_error_iff]
    cases hadd : store.add dataset with
    | error found => simp [perform_add_of_error built hadd]
    | ok next => simp [perform_add_of_ok built hadd]
  add_unchanged dataset built error hrefused := by
    cases hadd : store.add dataset with
    | error found => rw [perform_add_of_error built hadd]
    | ok next =>
        rw [perform_add_of_ok built hadd] at hrefused
        cases hrefused
  remove_ok id hid := by
    -- the id is one of the store, so it cannot be refused as no id at all
    have hvalid : isValidId id = true := by
      simp [isValidId, hstore.shown_ids id hid,
        hasSeparator_eq_false_iff.2 (hstore.whole_ids id hid)]
    exact perform_remove_of_ok (remove_eq_ok_iff.2 ⟨hvalid, hid, rfl⟩)
  remove_unchanged id error hrefused := by
    cases hremove : store.remove id with
    | error found => rw [perform_remove_of_error hremove]
    | ok next =>
        rw [perform_remove_of_ok hremove] at hrefused
        cases hrefused

/-- After any run from the empty store, the store is sound, shows exactly the datasets that stand
in the log of the run, in order, and takes and gives up datasets as their list does. -/
theorem run_shows_standing_datasets (operations : List Operation) :
    (empty.performAll operations).Sound ∧
      (empty.performAll operations).Shows (standing (empty.log operations)) ∧
      (empty.performAll operations).ActsAsList := by
  have hwell := (Reachable.empty.performAll operations).wellFormed
  have hempty : empty.datasets = standing [] := rfl
  have hstanding : (empty.performAll operations).datasets = standing (empty.log operations) :=
    datasets_performAll operations hempty
  exact ⟨hwell.sound, hstanding ▸ hwell.shows, hwell.sound.actsAsList⟩

end Store

end CampusQuery
