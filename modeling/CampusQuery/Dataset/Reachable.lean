import CampusQuery.Dataset.Seed

/-!
# Reachable stores

The stores that operations can build from the empty one. All of them are well
formed, so what `Store.WellFormed` says may be used of any store a run can have.
-/

namespace CampusQuery

namespace Dataset

theorem ofJson_eq_ok_iff {id : String} {kind : Kind} {json : Json} {dataset : Dataset} :
    ofJson id kind json = .ok dataset ↔
      ∃ records, Record.decodeList kind json = .ok records ∧
        create id kind records = .ok dataset := by
  unfold ofJson
  cases Record.decodeList kind json <;> simp

theorem wellFormed_of_ofJson {id : String} {kind : Kind} {json : Json} {dataset : Dataset}
    (hdataset : ofJson id kind json = .ok dataset) : dataset.WellFormed := by
  obtain ⟨records, _, hcreate⟩ := ofJson_eq_ok_iff.1 hdataset
  exact (create_eq_ok_iff.1 hcreate).2

/-- A seed file gives only well-formed datasets. -/
theorem wellFormed_of_readFile {tree : FileTree} {path : String} {dataset : Dataset}
    (hread : readFile tree path = .ok dataset) : dataset.WellFormed := by
  unfold readFile at hread
  split at hread
  · simp at hread
  · split at hread
    · simp at hread
    · exact wellFormed_of_ofJson hread

theorem wellFormed_of_mapM_readFile {tree : FileTree} {paths : List String}
    {datasets : List Dataset} (hread : paths.mapM (readFile tree) = .ok datasets) :
    ∀ dataset ∈ datasets, dataset.WellFormed := by
  induction paths generalizing datasets with
  | nil =>
      rw [List.mapM_nil] at hread
      cases hread
      simp
  | cons path rest ih =>
      rw [List.mapM_cons] at hread
      cases hfirst : readFile tree path with
      | error error => simp [hfirst, bind, Except.bind] at hread
      | ok first =>
          cases hrest : rest.mapM (readFile tree) with
          | error error => simp [hfirst, hrest, bind, Except.bind] at hread
          | ok others =>
              simp only [hfirst, hrest, bind, Except.bind, pure, Except.pure,
                Except.ok.injEq] at hread
              subst hread
              intro dataset hmem
              rcases List.mem_cons.1 hmem with rfl | hmem
              · exact wellFormed_of_readFile hfirst
              · exact ih hrest dataset hmem

end Dataset

namespace Store

theorem WellFormed.loadDirectory {store : Store} (hstore : store.WellFormed) (tree : FileTree)
    (directory : String) : (store.loadDirectory tree directory).1.WellFormed := by
  unfold Store.loadDirectory
  cases hread : Dataset.readDirectory tree directory with
  | error error => exact hstore
  | ok datasets =>
      have hall : ∀ dataset ∈ datasets, dataset.WellFormed := by
        unfold Dataset.readDirectory at hread
        split at hread
        · simp at hread
        · exact Dataset.wellFormed_of_mapM_readFile hread
      have hnext := hstore.addAll hall
      dsimp only
      split <;> simp_all

/-- The stores that can be built from the empty one by adding checked datasets, removing ids and
loading directories. -/
inductive Reachable : Store → Prop where
  | empty : Reachable Store.empty
  | add {store next : Store} {id : String} {kind : Kind} {records : List Record}
      {dataset : Dataset} : Reachable store → Dataset.create id kind records = .ok dataset →
      store.add dataset = .ok next → Reachable next
  | remove {store next : Store} {id : String} : Reachable store →
      store.remove id = .ok next → Reachable next
  | load {store : Store} {tree : FileTree} {directory : String} : Reachable store →
      Reachable (store.loadDirectory tree directory).1

/-- Every reachable store is well formed. -/
theorem Reachable.wellFormed {store : Store} (hreachable : store.Reachable) :
    store.WellFormed := by
  induction hreachable with
  | empty => exact WellFormed.empty
  | add _ hcreate hadd ih => exact ih.add (Dataset.create_eq_ok_iff.1 hcreate).2 hadd
  | remove _ hremove ih => exact ih.remove hremove
  | load _ ih => exact ih.loadDirectory _ _

end Store

end CampusQuery
