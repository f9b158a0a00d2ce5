import CampusQuery.Query.Execution
import CampusQuery.Proofs.Query.Options

/-!
# Reading documents

A document is accepted exactly if the grammar writes a plan with it while some
dataset of the registry is bound, and then it becomes that plan.
-/

namespace CampusQuery.Query

variable {registry : Registry} {bound : Bound} {state : Option Bound}

/-! ## Filters -/

theorem coherent_filterOf (value : Json) : Coherent registry (filterOf registry value) := by
  refine (Coherent.lift _).bind fun entries => ?_
  split
  · exact .pure _
  · exact (coherent_filterNodes 1 [value]).bind fun nodes => .pure _

theorem filterOf_run_some_eq_ok_iff {value : Json} {filter : Option FilterTree} :
    (filterOf registry value).run (some bound) = .ok (filter, state) ↔
      FilterWrittenBy bound filter value ∧ state = some bound := by
  simp only [filterOf, Check.run_bind_eq_ok_iff, Check.run_lift_eq_ok_iff,
    Check.asObject_eq_ok_iff]
  constructor
  · intro hrun
    obtain ⟨entries, _, ⟨rfl, rfl⟩, hrest⟩ := hrun
    split at hrest
    next hempty =>
      obtain ⟨rfl, rfl⟩ := Check.run_pure_eq_ok_iff.1 hrest
      rw [List.isEmpty_iff.1 hempty]
      exact ⟨.everything, rfl⟩
    next =>
      obtain ⟨nodes, _, hnodes, hend⟩ := Check.run_bind_eq_ok_iff.1 hrest
      obtain ⟨⟨conditions, hall, rfl⟩, rfl⟩ := Condition.filterNodes_run_some_eq_ok_iff.1 hnodes
      obtain ⟨condition, _, hwritten, hnil, rfl⟩ := List.forall₂_cons_right_iff.1 hall
      obtain rfl := List.forall₂_nil_right_iff.1 hnil
      obtain ⟨rfl, rfl⟩ := Check.run_pure_eq_ok_iff.1 hend
      exact ⟨.condition hwritten, rfl⟩
  · intro hwritten
    obtain ⟨hwritten, rfl⟩ := hwritten
    cases hwritten with
    | everything => exact ⟨[], _, ⟨rfl, rfl⟩, rfl⟩
    | @condition condition _ hwritten =>
        obtain ⟨entry, rfl⟩ := hwritten.eq_object
        refine ⟨[entry], _, ⟨rfl, rfl⟩, Check.run_bind_eq_ok_iff.2 ⟨_, _, ?_, rfl⟩⟩
        exact Condition.filterNodes_run_some_eq_ok_iff.2
          ⟨⟨[condition], .cons hwritten .nil, rfl⟩, rfl⟩

/-! ## Documents -/

/-- What is read from a document before it is asked which dataset that bound. -/
structure DocumentParts where
  filter : Option FilterTree
  transform : Option Transform
  columns : List Column
  order : Option OrderSpec

/-- Check that the columns fit the transformation, if there is one. -/
def checkColumns (columns : List Column) : Option Transform → Except Violation Unit
  | none => .ok ()
  | some transform => checkColumnSet columns transform

/-- The transformation of a document's entries, if there is one. -/
def transformPart (registry : Registry) (entries : List (String × Json)) :
    Check (Option Transform) :=
  match Json.lookup? "TRANSFORMATIONS" entries with
  | none => pure none
  | some value => some <$> transformOf registry value

/-- Read the parts of a document. -/
def documentParts (registry : Registry) (document : Json) : Check DocumentParts := do
  let entries ← asObject .query document
  checkKeys .query [["WHERE", "OPTIONS"], ["WHERE", "OPTIONS", "TRANSFORMATIONS"]] entries
  let filter ← filterOf registry ((Json.lookup? "WHERE" entries).getD .null)
  let transform ← transformPart registry entries
  let (columns, order) ←
    optionsOf registry transform ((Json.lookup? "OPTIONS" entries).getD .null)
  checkColumns columns transform
  pure ⟨filter, transform, columns, order⟩

/-- The plan of the parts over the dataset that they bound. -/
def DocumentParts.plan (bound : Bound) (parts : DocumentParts) : Plan where
  datasetId := bound.datasetId
  kind := bound.kind
  filter := parts.filter
  columns := parts.columns
  order := parts.order
  transform := parts.transform.getD .none

theorem checkDocument_eq (registry : Registry) (document : Json) :
    checkDocument registry document = (do
      let parts ← documentParts registry document
      match ← get with
      | none => throw .noDataset
      | some bound => pure (parts.plan bound)) := by
  simp only [checkDocument, documentParts, bind_assoc, pure_bind]
  refine bind_congr fun entries => bind_congr fun _ => bind_congr fun filter => ?_
  unfold transformPart
  cases Json.lookup? "TRANSFORMATIONS" entries with
  | none =>
      rw [pure_bind]
      rfl
  | some value =>
      refine bind_congr fun transform => bind_congr fun parts => ?_
      cases transform <;> rfl

theorem checkColumnSet_eq_ok_iff {columns : List Column} {transform : Transform} {done : Unit} :
    checkColumnSet columns transform = .ok done ↔
      ∀ source, source ∈ columns.map Column.source ↔ source ∈ transform.sources := by
  unfold checkColumnSet
  dsimp only
  split
  next hsets =>
    rw [Bool.and_eq_true, List.all_eq_true, List.all_eq_true] at hsets
    refine ⟨fun _ source => ⟨fun hmem => ?_, fun hmem => ?_⟩, fun _ => rfl⟩
    · exact List.contains_iff_mem.1 (hsets.2 source hmem)
    · exact List.contains_iff_mem.1 (hsets.1 source hmem)
  next hsets =>
    rw [Bool.and_eq_true, List.all_eq_true, List.all_eq_true] at hsets
    simp only [reduceCtorEq, false_iff]
    intro hsame
    refine hsets ⟨fun source hmem => ?_, fun source hmem => ?_⟩
    · exact List.contains_iff_mem.2 ((hsame source).2 hmem)
    · exact List.contains_iff_mem.2 ((hsame source).1 hmem)

theorem coherent_transformPart (entries : List (String × Json)) :
    Coherent registry (transformPart registry entries) := by
  unfold transformPart
  split
  · exact .pure _
  · exact (coherent_transformOf _).bind fun transform => .pure _

theorem coherent_documentParts (registry : Registry) (document : Json) :
    Coherent registry (documentParts registry document) := by
  refine (Coherent.lift _).bind fun entries => (Coherent.lift _).bind fun _ => ?_
  refine (coherent_filterOf _).bind fun filter => (coherent_transformPart _).bind fun transform => ?_
  refine (coherent_optionsOf _).bind fun parts => (Coherent.lift _).bind fun _ => ?_
  exact .pure _

/-- Every document that is read has bound a dataset by its columns or its group fields. -/
theorem documentParts_binds {document : Json} {parts : DocumentParts} {before : Option Bound}
    (hrun : (documentParts registry document).run before = .ok (parts, state)) :
    ∃ found, state = some found := by
  simp only [documentParts, Check.run_bind_eq_ok_iff, Check.run_lift_eq_ok_iff,
    Check.run_pure_eq_ok_iff] at hrun
  obtain ⟨entries, _, -, _, _, -, filter, _, -, transform, middle, htransform, options, _, hoptions,
    _, _, ⟨-, rfl⟩, -, rfl⟩ := hrun
  unfold transformPart at htransform
  split at htransform
  next =>
    -- without a transformation every column is a reference
    obtain ⟨rfl, -⟩ := Check.run_pure_eq_ok_iff.1 htransform
    exact optionsOf_binds hoptions
  next =>
    obtain ⟨found, hfound, -⟩ := Check.run_map_eq_ok_iff.1 htransform
    obtain ⟨bound, rfl⟩ := transformOf_binds hfound
    exact ⟨bound, (coherent_optionsOf _).keeps hoptions⟩

theorem plan_writtenBy_of_run {document : Json} {parts : DocumentParts}
    (hrun : (documentParts registry document).run (some bound) = .ok (parts, state)) :
    (parts.plan bound).WrittenBy bound document := by
  simp only [documentParts, Check.run_bind_eq_ok_iff, Check.run_lift_eq_ok_iff,
    Check.run_pure_eq_ok_iff, Check.asObject_eq_ok_iff, Check.checkKeys_eq_ok_iff] at hrun
  obtain ⟨entries, _, ⟨rfl, rfl⟩, _, _, ⟨hkeys, rfl⟩, filter, _, hrunFilter, transform, _,
    hrunTransform, ⟨columns, order⟩, _, hrunOptions, _, _, ⟨hcolumns, -⟩, rfl, -⟩ := hrun
  obtain ⟨hfilter, rfl⟩ := filterOf_run_some_eq_ok_iff.1 hrunFilter
  -- the two lists of keys are the two forms of the grammar
  rw [List.mem_pair] at hkeys
  rcases hkeys with hkeys | hkeys
  · obtain ⟨written, _, rfl, hbehind⟩ := Check.keys_eq_cons_iff.1 hkeys
    obtain ⟨options, _, rfl, hnil⟩ := Check.keys_eq_cons_iff.1 hbehind
    obtain rfl := List.map_eq_nil_iff.1 hnil
    obtain ⟨rfl, rfl⟩ := Check.run_pure_eq_ok_iff.1 hrunTransform
    obtain ⟨hoptions, -⟩ := (optionsOf_run_some_eq_ok_iff (by simp)).1 hrunOptions
    exact .plain hfilter hoptions
  · obtain ⟨written, _, rfl, hbehind⟩ := Check.keys_eq_cons_iff.1 hkeys
    obtain ⟨options, _, rfl, hlast⟩ := Check.keys_eq_cons_iff.1 hbehind
    obtain ⟨transformations, _, rfl, hnil⟩ := Check.keys_eq_cons_iff.1 hlast
    obtain rfl := List.map_eq_nil_iff.1 hnil
    obtain ⟨found, hfound, rfl⟩ := Check.run_map_eq_ok_iff.1 hrunTransform
    obtain ⟨htransform, rfl⟩ := transformOf_run_some_eq_ok_iff.1 hfound
    obtain ⟨hoptions, -⟩ :=
      (optionsOf_run_some_eq_ok_iff (by simpa using htransform.proper)).1 hrunOptions
    exact .transformed hfilter htransform hoptions (checkColumnSet_eq_ok_iff.1 hcolumns)

theorem exists_run_of_writtenBy (registry : Registry) {document : Json} {plan : Plan}
    (hwritten : plan.WrittenBy bound document) :
    ∃ parts, (documentParts registry document).run (some bound) = .ok (parts, some bound) ∧
      parts.plan bound = plan := by
  simp only [documentParts, Check.run_bind_eq_ok_iff, Check.run_lift_eq_ok_iff,
    Check.run_pure_eq_ok_iff, Check.asObject_eq_ok_iff, Check.checkKeys_eq_ok_iff]
  cases hwritten with
  | @plain filter columns order written options hfilter hoptions =>
      exact ⟨⟨filter, none, columns, order⟩, ⟨_, _, ⟨rfl, rfl⟩, (), _, ⟨List.mem_cons_self, rfl⟩,
        filter, _, filterOf_run_some_eq_ok_iff.2 ⟨hfilter, rfl⟩, none, _, rfl, (columns, order), _,
        (optionsOf_run_some_eq_ok_iff (by simp)).2 ⟨hoptions, rfl⟩, (), _, ⟨rfl, rfl⟩, rfl, rfl⟩,
        rfl⟩
  | @transformed filter transform columns order written options transformations hfilter htransform
      hoptions hsame =>
      have hrun : (transformPart registry [("WHERE", written), ("OPTIONS", options),
          ("TRANSFORMATIONS", transformations)]).run (some bound) =
            .ok (some transform, some bound) :=
        Check.run_map_eq_ok_iff.2 ⟨transform,
          transformOf_run_some_eq_ok_iff.2 ⟨htransform, rfl⟩, rfl⟩
      exact ⟨⟨filter, some transform, columns, order⟩, ⟨_, _, ⟨rfl, rfl⟩, (), _,
        ⟨List.mem_pair.2 (.inr rfl), rfl⟩, filter, _,
        filterOf_run_some_eq_ok_iff.2 ⟨hfilter, rfl⟩, some transform, _, hrun, (columns, order), _,
        (optionsOf_run_some_eq_ok_iff (by simpa using htransform.proper)).2 ⟨hoptions, rfl⟩, (), _,
        ⟨checkColumnSet_eq_ok_iff.2 hsame, rfl⟩, rfl, rfl⟩, rfl⟩

/-- A document becomes a plan exactly if it writes the plan over a dataset of the registry. -/
theorem Plan.ofDocument_eq_ok_iff {document : Json} {plan : Plan} :
    Plan.ofDocument registry document = .ok plan ↔
      ∃ bound : Bound, registry bound.datasetId = some bound.kind ∧
        plan.WrittenBy bound document := by
  have hanswer : Plan.ofDocument registry document = .ok plan ↔
      ∃ next, (checkDocument registry document).run none = .ok (plan, next) := by
    unfold Plan.ofDocument StateT.run'
    change (Prod.fst <$> (checkDocument registry document).run none) = _ ↔ _
    cases (checkDocument registry document).run none with
    | error violation => simp [Functor.map, Except.map]
    | ok pair => simp [Functor.map, Except.map, Prod.ext_iff]
  rw [hanswer, checkDocument_eq]
  simp only [Check.run_bind_eq_ok_iff, Check.run_get_eq_ok_iff]
  constructor
  · intro hrun
    obtain ⟨last, parts, middle, hparts, _, _, ⟨rfl, rfl⟩, hend⟩ := hrun
    obtain ⟨bound, rfl⟩ := documentParts_binds hparts
    obtain ⟨rfl, rfl⟩ := Check.run_pure_eq_ok_iff.1 hend
    -- bound in advance, the dataset gives the same answer, which is what the grammar speaks of
    have hcoherent := coherent_documentParts registry document
    have hreach := hcoherent.opens hparts (reaches_some_iff.2 rfl)
    have hbound := (hcoherent.agrees hreach).2 ⟨_, hparts, reaches_some_iff.2 rfl⟩
    exact ⟨bound, reaches_none_iff.1 hreach, plan_writtenBy_of_run hbound⟩
  · intro hwritten
    obtain ⟨bound, hregistered, hplan⟩ := hwritten
    obtain ⟨parts, hparts, rfl⟩ := exists_run_of_writtenBy registry hplan
    -- unbound, the document still has to find that it is this dataset that it binds
    have hcoherent := coherent_documentParts registry document
    obtain ⟨next, hnone, hend⟩ := (hcoherent.agrees (reaches_none_iff.2 hregistered)).1 hparts
    obtain ⟨found, rfl⟩ := documentParts_binds hnone
    cases reaches_some_iff.1 hend
    exact ⟨_, parts, _, hnone, _, _, ⟨rfl, rfl⟩, rfl⟩

/-- The documents of the query language over the datasets of a registry. -/
def IsQuery (registry : Registry) (document : Json) : Prop :=
  ∃ bound : Bound, registry bound.datasetId = some bound.kind ∧
    ∃ plan : Plan, plan.WrittenBy bound document

theorem plan_eq_ok_iff {document : Json} {found : Plan} :
    plan registry document = .ok found ↔ Plan.ofDocument registry document = .ok found :=
  Answer.mapError_eq_ok_iff

theorem exists_plan_iff {document : Json} :
    (∃ found, plan registry document = .ok found) ↔ IsQuery registry document := by
  simp only [plan_eq_ok_iff, Plan.ofDocument_eq_ok_iff, IsQuery]
  constructor
  · intro hplan
    obtain ⟨found, bound, hregistered, hwritten⟩ := hplan
    exact ⟨bound, hregistered, found, hwritten⟩
  · intro hquery
    obtain ⟨bound, hregistered, found, hwritten⟩ := hquery
    exact ⟨found, bound, hregistered, hwritten⟩

/-- Exactly the documents of the query language become plans, and every other document is
refused as an invalid query. -/
theorem plan_accepts_exactly_queries (registry : Registry) (document : Json) :
    ((∃ found, plan registry document = .ok found) ↔ IsQuery registry document) ∧
      ((∃ reason, plan registry document = .error (.invalid reason)) ↔
        ¬ IsQuery registry document) := by
  refine ⟨exists_plan_iff, ?_⟩
  rw [← exists_plan_iff]
  unfold plan
  cases Plan.ofDocument registry document <;> simp [Except.mapError]

end CampusQuery.Query
