import CampusQuery.Dataset.Reachable

/-!
# Operations on a store

Adding, removing and loading as data, each with what it tells its caller. An
operation on datasets only takes those that were built with their checks.
-/

namespace CampusQuery

/-- A dataset that was built with its checks, from records or from a JSON list of them. -/
inductive Dataset.Built (dataset : Dataset) : Prop where
  | created {id : String} {kind : Kind} {records : List Record} :
      Dataset.create id kind records = .ok dataset → Built dataset
  | read {id : String} {kind : Kind} {json : Json} :
      Dataset.ofJson id kind json = .ok dataset → Built dataset

theorem Dataset.Built.wellFormed {dataset : Dataset} (hbuilt : dataset.Built) :
    dataset.WellFormed := by
  cases hbuilt with
  | created hcreate => exact (create_eq_ok_iff.1 hcreate).2
  | read hread => exact wellFormed_of_ofJson hread

namespace Store

inductive Operation where
  | add (dataset : Dataset) (built : dataset.Built)
  | remove (id : String)
  | load (tree : FileTree) (directory : String)

/-- What an operation that succeeds tells: all ids, the id of the dataset that was taken out, or
how many datasets were loaded. -/
inductive Reply where
  | added (ids : List String)
  | removed (id : String)
  | loaded (count : Nat)
deriving DecidableEq, Repr

/-- The store after an operation, and its reply or error. -/
def perform (store : Store) : Operation → Store × Except DatasetError Reply
  | .add dataset _ =>
      match store.add dataset with
      | .ok next => (next, .ok (.added next.ids))
      | .error error => (store, .error error)
  | .remove id =>
      match store.remove id, store.get? id with
      | .ok next, some dataset => (next, .ok (.removed dataset.id))
      | .ok _, none => (store, .error (.notFound id))
      | .error error, _ => (store, .error error)
  | .load tree directory =>
      let (next, answer) := store.loadDirectory tree directory
      (next, answer.map .loaded)

/-- The store after operations one after another. -/
def performAll (store : Store) : List Operation → Store
  | [] => store
  | operation :: rest => (store.perform operation).1.performAll rest

/-! ## What an operation comes to -/

section Perform

variable {store next : Store} {error : DatasetError}

theorem perform_add_of_ok {dataset : Dataset} (built : dataset.Built)
    (hadd : store.add dataset = .ok next) :
    store.perform (.add dataset built) = (next, .ok (.added next.ids)) := by
  simp only [perform, hadd]

theorem perform_add_of_error {dataset : Dataset} (built : dataset.Built)
    (hadd : store.add dataset = .error error) :
    store.perform (.add dataset built) = (store, .error error) := by
  simp only [perform, hadd]

/-- A removal tells the id that was asked for, since the dataset that goes has it. -/
theorem perform_remove_of_ok {id : String} (hremove : store.remove id = .ok next) :
    store.perform (.remove id) = (next, .ok (.removed id)) := by
  obtain ⟨-, hid, -⟩ := remove_eq_ok_iff.1 hremove
  obtain ⟨dataset, hdataset⟩ := Option.isSome_iff_exists.1 (get?_isSome_iff.2 hid)
  obtain ⟨-, hsame⟩ := mem_of_get? hdataset
  simp only [perform, hremove, hdataset, hsame]

theorem perform_remove_of_error {id : String} (hremove : store.remove id = .error error) :
    store.perform (.remove id) = (store, .error error) := by
  simp only [perform, hremove]

end Perform

/-- Operations on reachable stores lead to reachable stores. -/
theorem Reachable.perform {store : Store} (hstore : store.Reachable) (operation : Operation) :
    (store.perform operation).1.Reachable := by
  cases operation with
  | add dataset built =>
      cases hadd : store.add dataset with
      | error error =>
          rw [perform_add_of_error built hadd]
          exact hstore
      | ok next =>
          rw [perform_add_of_ok built hadd]
          exact .add hstore (Dataset.create_eq_ok_iff.2 ⟨rfl, built.wellFormed⟩) hadd
  | remove id =>
      cases hremove : store.remove id with
      | error error =>
          rw [perform_remove_of_error hremove]
          exact hstore
      | ok next =>
          rw [perform_remove_of_ok hremove]
          exact .remove hstore hremove
  | load tree directory => exact .load hstore

theorem Reachable.performAll {store : Store} (hstore : store.Reachable)
    (operations : List Operation) : (store.performAll operations).Reachable := by
  induction operations generalizing store with
  | nil => exact hstore
  | cons operation rest ih => exact ih (hstore.perform operation)

end Store

end CampusQuery
