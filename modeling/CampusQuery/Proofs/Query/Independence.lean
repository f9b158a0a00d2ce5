import CampusQuery.Proofs.Query.Naming
import CampusQuery.Proofs.Query.Running

/-!
# Which datasets a query depends on

An accepted query depends on a store only through the dataset it is bound to. A
document of any kind depends on it only through the ids that it names, so what
else is added to a store or removed from it is never seen.
-/

namespace CampusQuery

namespace Store

variable {store next : Store} {dataset : Dataset} {id : String}

/-- What is there stays there while more datasets are added, and none of them takes its place. -/
theorem get?_addAll (datasets : List Dataset) (hget : store.get? id = some dataset) :
    (store.addAll datasets).1.get? id = some dataset := by
  induction datasets generalizing store with
  | nil => exact hget
  | cons first rest ih =>
      unfold addAll
      cases hadd : store.add first with
      | error error => exact hget
      | ok next =>
          obtain ⟨-, -, rfl⟩ := add_eq_ok_iff.1 hadd
          refine ih ?_
          rw [get?, List.find?_append]
          exact Option.or_eq_some_iff.2 (.inl hget)

/-- A removal leaves what is found under other ids. -/
theorem get?_remove_of_ne {removed : String} (hremove : store.remove removed = .ok next)
    (hne : id ≠ removed) : next.get? id = store.get? id := by
  obtain ⟨-, -, rfl⟩ := remove_eq_ok_iff.1 hremove
  rw [get?, get?, List.find?_filter]
  congr 1
  funext dataset
  -- a dataset that is looked for is never the one that is removed
  by_cases hid : dataset.id = id
  · simp [hid, hne]
  · simp [hid]

end Store

namespace Query

variable {store other : Store} {document : Json} {found : Plan}

/-- A registry that no longer knows a dataset. -/
def forgetting (registry : Registry) (datasetId : String) : Registry :=
  fun id => if id = datasetId then none else registry id

/-- An accepted document names the dataset that it is bound to. -/
theorem names_of_plan {registry : Registry} (hplan : plan registry document = .ok found) :
    document.Names found.datasetId := by
  by_contra hnames
  -- otherwise it would be accepted just as well where nobody knows that dataset
  have hagree : ∀ id, document.Names id → registry id = forgetting registry found.datasetId id := by
    intro id hid
    have hne : id ≠ found.datasetId := fun heq => hnames (heq ▸ hid)
    exact (if_neg hne).symm
  rw [plan_congr hagree] at hplan
  have hregistered := registered_of_plan hplan
  simp [forgetting] at hregistered

/-- Two stores answer a document alike: it becomes the same plan or is refused for the same reason,
and under every cap its run comes to the same rows and counts or to the same error. -/
structure AnswerAlike (store other : Store) (document : Json) : Prop where
  plan_eq : plan other.registry document = plan store.registry document
  run_eq : ∀ maxRows, run maxRows other document = run maxRows store document

theorem answerAlike_of_plan_eq
    (hplans : plan other.registry document = plan store.registry document)
    (hsame : ∀ found, plan store.registry document = .ok found →
      other.get? found.datasetId = store.get? found.datasetId) :
    AnswerAlike store other document where
  plan_eq := hplans
  run_eq maxRows := by
    unfold run
    rw [hplans]
    cases hplan : plan store.registry document with
    | error refusal => rfl
    | ok found =>
        change found.run maxRows other = found.run maxRows store
        unfold Plan.run Store.recordsOf?
        rw [hsame found hplan]

/-- Stores that hold the same dataset under the id that a query is bound to answer it alike. -/
theorem answerAlike_of_bound (hplan : plan store.registry document = .ok found)
    (hsame : other.get? found.datasetId = store.get? found.datasetId) :
    AnswerAlike store other document := by
  obtain ⟨bound, hregistered, hwritten⟩ := Plan.ofDocument_eq_ok_iff.1 (plan_eq_ok_iff.1 hplan)
  obtain ⟨_, _, -, -, rfl⟩ := hwritten.exists_where
  have hkind : other.registry found.datasetId = some found.kind := by
    rw [← hregistered]
    unfold Store.registry Store.kindOf?
    rw [hsame]
  have hother : plan other.registry document = .ok found :=
    plan_eq_ok_iff.2 (Plan.ofDocument_eq_ok_iff.2 ⟨_, hkind, hwritten⟩)
  refine answerAlike_of_plan_eq (hother.trans hplan.symm) ?_
  intro same hfound
  cases hplan.symm.trans hfound
  exact hsame

/-- Stores that hold the same datasets under the ids that a document names answer it alike. -/
theorem answerAlike_of_named (hsame : ∀ id, document.Names id → other.get? id = store.get? id) :
    AnswerAlike store other document := by
  have hkinds : ∀ id, document.Names id → other.registry id = store.registry id := by
    intro id hid
    unfold Store.registry Store.kindOf?
    rw [hsame id hid]
  exact answerAlike_of_plan_eq (plan_congr hkinds)
    fun found hplan => hsame found.datasetId (names_of_plan hplan)

/-- What a store holds besides the dataset of an accepted query is never seen by it, whatever is
added. A removal is only seen by documents that name the id, and by a query only if the id is the
one it is bound to. -/
theorem other_datasets_unseen (hstore : store.Reachable) (document : Json) :
    (∀ found, plan store.registry document = .ok found →
      (∀ other : Store, other.get? found.datasetId = store.get? found.datasetId →
        plan other.registry document = .ok found ∧ AnswerAlike store other document) ∧
      (∀ maxRows, (∃ output, run maxRows store document = .ok output) ∨
        ∃ count, run maxRows store document = .error (.tooLarge count maxRows)) ∧
      (∀ datasets, AnswerAlike store (store.addAll datasets).1 document) ∧
      ∀ id next, store.remove id = .ok next → id ≠ found.datasetId →
        AnswerAlike store next document) ∧
    ∀ id next, store.remove id = .ok next → ¬ document.Names id →
      AnswerAlike store next document := by
  refine ⟨?_, ?_⟩
  · intro found hplan
    refine ⟨?_, ?_, ?_, ?_⟩
    · intro other hsame
      have halike := answerAlike_of_bound hplan hsame
      exact ⟨halike.plan_eq.trans hplan, halike⟩
    · intro maxRows
      have hrun : run maxRows store document = found.run maxRows store := by
        unfold run
        rw [hplan]
        rfl
      obtain ⟨dataset, hdataset, hkind⟩ := Option.map_eq_some_iff.1 (registered_of_plan hplan)
      rw [hrun]
      exact (proper_of_plan hplan).run_cases maxRows hstore.wellFormed hdataset hkind
    · intro datasets
      obtain ⟨dataset, hdataset, -⟩ := Option.map_eq_some_iff.1 (registered_of_plan hplan)
      refine answerAlike_of_bound hplan ?_
      rw [Store.get?_addAll datasets hdataset, hdataset]
    · intro id next hremove hne
      exact answerAlike_of_bound hplan (Store.get?_remove_of_ne hremove hne.symm)
  · intro id next hremove hnames
    refine answerAlike_of_named fun named hnamed => ?_
    exact Store.get?_remove_of_ne hremove fun heq => hnames (heq ▸ hnamed)

/-- A second dataset beside the courses. -/
def labs : Dataset := ⟨"labs", .sections, [sectionOf (.ofNat 50)]⟩

def coursesAndLabs : Store := ⟨(storeOf [.ofNat 90]).datasets ++ [labs]⟩

theorem reachable_coursesAndLabs : coursesAndLabs.Reachable := by
  have hcourses : (storeOf [.ofNat 90]).Reachable :=
    reachable_storeOf_singleton (by decide +kernel)
  have hlabs : labs.WellFormed := by
    refine ⟨by decide +kernel, ?_, ?_⟩
    · intro record hrecord
      rw [List.mem_singleton.1 hrecord]
      rfl
    · intro record hrecord
      rw [List.mem_singleton.1 hrecord]
      decide +kernel
  refine .add hcourses (Dataset.create_eq_ok_iff.2 ⟨rfl, hlabs⟩) (Store.add_eq_ok_iff.2 ⟨?_, ?_, rfl⟩)
  · simp [storeOf, Store.ids]
  · simp

/-- Removing the labs is not seen by a query for the departments of the courses. -/
theorem labs_unseen_by_departments :
    coursesAndLabs.Reachable ∧
      coursesAndLabs.remove "labs" = .ok (storeOf [.ofNat 90]) ∧
      AnswerAlike coursesAndLabs (storeOf [.ofNat 90]) departments := by
  have hremove : coursesAndLabs.remove "labs" = .ok (storeOf [.ofNat 90]) :=
    Store.remove_eq_ok_iff.2 ⟨by decide +kernel, by simp [coursesAndLabs, labs, Store.ids], rfl⟩
  have hplan := plan_eq_ok_iff.2 (Plan.ofDocument_eq_ok_iff.2
    ⟨⟨"courses", .sections⟩, (rfl : coursesAndLabs.registry "courses" = some .sections),
      .plain .everything (.unordered columnsWrittenBy_department)⟩)
  obtain ⟨-, -, -, hunseen⟩ :=
    (other_datasets_unseen reachable_coursesAndLabs departments).1 _ hplan
  exact ⟨reachable_coursesAndLabs, hremove, hunseen _ _ hremove (by decide)⟩

end Query

end CampusQuery
