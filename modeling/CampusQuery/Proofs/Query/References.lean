import CampusQuery.Proofs.Query.Checks
import Mathlib.Data.List.TakeDrop
import Mathlib.Data.List.TakeWhile

/-!
# What references refer to

A text refers to a field of the bound dataset exactly when it is the dataset's
id, the separator and the field's bare name. Resolving such a text is coherent,
so nothing depends on which reference of a document comes first.
-/

namespace CampusQuery

theorem hasSeparator_eq_false_iff {text : String} :
    hasSeparator text = false ↔ separator ∉ text.toList := by
  simp [hasSeparator]

theorem hasSeparator_append (front back : String) :
    hasSeparator (front ++ back) = (hasSeparator front || hasSeparator back) := by
  simp [hasSeparator, String.toList_append]

namespace Field

/-- Bare names hold no separator, so they are never taken for references. -/
theorem hasSeparator_bareName (f : Field) : hasSeparator f.bareName = false := by
  rcases f with f | f <;> cases f <;> decide

theorem bareName_ne_empty (f : Field) : f.bareName ≠ "" := by
  rcases f with f | f <;> cases f <;> decide

theorem hasSeparator_qualified (f : Field) (datasetId : String) :
    hasSeparator (f.qualified datasetId) = true := by
  have hmiddle : hasSeparator "_" = true := by decide
  simp [qualified, hasSeparator_append, hmiddle]

end Field

namespace QualifiedName

/-- A text is split at its first separator, and whatever follows is the field. -/
theorem span_separator (front rest : List Char) (hfront : separator ∉ front) :
    (front ++ separator :: rest).span (· != separator) = (front, separator :: rest) := by
  have hkeep : ∀ c ∈ front, (c != separator) = true := by
    intro c hc
    rw [bne_iff_ne]
    exact fun heq => hfront (heq ▸ hc)
  rw [List.span_eq_takeWhile_dropWhile, List.takeWhile_append_of_pos hkeep,
    List.dropWhile_append_of_pos hkeep]
  simp

theorem eq_append_of_span {text front rest : List Char} {c : Char}
    (hspan : text.span (· != separator) = (front, c :: rest)) :
    text = front ++ separator :: rest ∧ separator ∉ front := by
  rw [List.span_eq_takeWhile_dropWhile, Prod.mk.injEq] at hspan
  obtain ⟨hfront, hrest⟩ := hspan
  have hc : c = separator := by
    have hhead := List.head_dropWhile_not (· != separator) (l := text) (by simp [hrest])
    simpa [hrest] using hhead
  subst hc
  refine ⟨?_, ?_⟩
  · rw [← hfront, ← hrest, List.takeWhile_append_dropWhile]
  · intro hmem
    rw [← hfront] at hmem
    simpa using List.mem_takeWhile_imp hmem

theorem parse?_eq_some_iff {key : String} {name : QualifiedName} :
    parse? key = some name ↔
      key = name.datasetId ++ "_" ++ name.field ∧ name.datasetId ≠ "" ∧ name.field ≠ "" ∧
        hasSeparator name.datasetId = false := by
  obtain ⟨datasetId, field⟩ := name
  have hmiddle : "_".toList = [separator] := by decide
  unfold parse?
  constructor
  · intro hparse
    split at hparse
    · cases hparse
    next front c rest hspan =>
      obtain ⟨htext, hfront⟩ := eq_append_of_span hspan
      split at hparse
      · cases hparse
      next hfilled =>
        simp only [Bool.or_eq_true, List.isEmpty_iff, not_or] at hfilled
        cases hparse
        refine ⟨?_, ?_, ?_, ?_⟩
        · apply String.toList_injective
          simp [String.toList_append, htext, hmiddle]
        · simpa [← String.toList_inj] using hfilled.1
        · simpa [← String.toList_inj] using hfilled.2
        · simpa [hasSeparator_eq_false_iff] using hfront
  · intro hkey
    obtain ⟨rfl, hid, hfield, hsep⟩ := hkey
    have htext : (datasetId ++ "_" ++ field).toList =
        datasetId.toList ++ separator :: field.toList := by
      simp [String.toList_append, hmiddle]
    rw [htext, span_separator _ _ (hasSeparator_eq_false_iff.1 hsep)]
    simp [hid, hfield]

end QualifiedName

namespace Query

/-- A text refers to a field of the bound dataset: it is the field's qualified name, and the id
is one that a reference can hold. -/
structure Bound.Refers (bound : Bound) (key : String) (field : Field) : Prop where
  of_kind : field.kind = bound.kind
  spelled : key = field.qualified bound.datasetId
  id_ne_empty : bound.datasetId ≠ ""
  id_no_separator : hasSeparator bound.datasetId = false

namespace Bound.Refers

variable {bound : Bound} {key : String} {field other : Field}

theorem hasSeparator_key (hrefers : bound.Refers key field) : hasSeparator key = true := by
  rw [hrefers.spelled]
  exact field.hasSeparator_qualified bound.datasetId

/-- A text refers to one field at most. -/
theorem unique (hfield : bound.Refers key field) (hother : bound.Refers key other) :
    field = other := by
  apply Kind.eq_of_bareName_eq (hfield.of_kind.trans hother.of_kind.symm)
  have hspelled := hfield.spelled.symm.trans hother.spelled
  simpa [Field.qualified, ← String.toList_inj, String.toList_append] using hspelled

end Bound.Refers

theorem refers_iff_parse? {bound : Bound} {key : String} {field : Field} :
    bound.Refers key field ↔
      ∃ name, QualifiedName.parse? key = some name ∧ name.datasetId = bound.datasetId ∧
        bound.kind.field? name.field = some field := by
  constructor
  · intro hrefers
    refine ⟨⟨bound.datasetId, field.bareName⟩, ?_, rfl, ?_⟩
    · exact QualifiedName.parse?_eq_some_iff.2 ⟨hrefers.spelled, hrefers.id_ne_empty,
        field.bareName_ne_empty, hrefers.id_no_separator⟩
    · exact Kind.field?_eq_some_iff.2 ⟨hrefers.of_kind, rfl⟩
  · intro hparsed
    obtain ⟨name, hparse, hid, hfield⟩ := hparsed
    obtain ⟨hspelled, hne, _, hsep⟩ := QualifiedName.parse?_eq_some_iff.1 hparse
    obtain ⟨hkind, hname⟩ := Kind.field?_eq_some_iff.1 hfield
    rw [hid] at hspelled hne hsep
    exact ⟨hkind, by rw [hspelled, Field.qualified, hname], hne, hsep⟩

/-! ## Resolving references -/

variable {registry : Registry}

/-- A dataset is bound when it is the bound one, or the first one and registered. -/
theorem bindDataset_run_eq_ok_iff {datasetId : String} {kind : Kind}
    {state next : Option Bound} :
    (bindDataset registry datasetId).run state = .ok (kind, next) ↔
      next = some ⟨datasetId, kind⟩ ∧ Reaches registry state ⟨datasetId, kind⟩ := by
  unfold bindDataset
  simp only [Check.run_bind_eq_ok_iff, Check.run_get_eq_ok_iff, and_assoc, exists_and_left,
    exists_eq_left]
  cases state with
  | some bound =>
      simp only [reaches_some_iff]
      split
      next hid =>
        subst hid
        rw [Check.run_pure_eq_ok_iff]
        constructor
        · intro hrun
          obtain ⟨rfl, rfl⟩ := hrun
          exact ⟨rfl, rfl⟩
        · intro hreached
          obtain ⟨rfl, hbound⟩ := hreached
          rw [hbound]
          exact ⟨rfl, rfl⟩
      next hid =>
        rw [Check.run_throw_eq_ok_iff, false_iff]
        rintro ⟨_, rfl⟩
        exact hid rfl
  | none =>
      simp only [reaches_none_iff]
      split
      next found hfound =>
        simp only [Check.run_bind_eq_ok_iff, Check.run_set_eq_ok_iff, Check.run_pure_eq_ok_iff,
          exists_eq_left, exists_const, hfound, Option.some.injEq]
        constructor
        · rintro ⟨rfl, rfl⟩
          exact ⟨rfl, rfl⟩
        · rintro ⟨rfl, rfl⟩
          exact ⟨rfl, rfl⟩
      next hnone =>
        rw [Check.run_throw_eq_ok_iff, false_iff]
        rintro ⟨_, hfound⟩
        exact nomatch hnone.symm.trans hfound

/-- The field of a reference is the one it refers to, in the dataset that is bound afterwards. -/
theorem resolveField_run_eq_ok_iff {key : String} {field : Field} {state next : Option Bound} :
    (resolveField registry key).run state = .ok (field, next) ↔
      ∃ bound, next = some bound ∧ Reaches registry state bound ∧ bound.Refers key field := by
  simp only [refers_iff_parse?]
  unfold resolveField
  split
  next hparse =>
    rw [Check.run_throw_eq_ok_iff, false_iff]
    intro hrun
    obtain ⟨_, _, _, name, hname, _⟩ := hrun
    exact nomatch hparse.symm.trans hname
  next name hparse =>
    simp only [Check.run_bind_eq_ok_iff, bindDataset_run_eq_ok_iff, hparse, Option.some.injEq]
    constructor
    · intro hrun
      obtain ⟨kind, _, ⟨rfl, hreach⟩, hrun⟩ := hrun
      split at hrun
      next found hfound =>
        obtain ⟨rfl, rfl⟩ := Check.run_pure_eq_ok_iff.1 hrun
        exact ⟨_, rfl, hreach, name, rfl, rfl, hfound⟩
      next => exact (Check.run_throw_eq_ok_iff.1 hrun).elim
    · intro hreaches
      obtain ⟨⟨_, kind⟩, rfl, hreach, _, rfl, rfl, hfield⟩ := hreaches
      refine ⟨kind, _, ⟨rfl, hreach⟩, ?_⟩
      rw [hfield]
      exact Check.run_pure_eq_ok_iff.2 ⟨rfl, rfl⟩

/-- With the dataset bound, a reference resolves exactly to the field it refers to. -/
theorem resolveField_run_some_eq_ok_iff {key : String} {bound : Bound} {field : Field}
    {next : Option Bound} :
    (resolveField registry key).run (some bound) = .ok (field, next) ↔
      bound.Refers key field ∧ next = some bound := by
  rw [resolveField_run_eq_ok_iff]
  constructor
  · intro hfound
    obtain ⟨found, rfl, hreach, hrefers⟩ := hfound
    cases reaches_some_iff.1 hreach
    exact ⟨hrefers, rfl⟩
  · intro hresult
    obtain ⟨hrefers, rfl⟩ := hresult
    exact ⟨bound, rfl, reaches_some_iff.2 rfl, hrefers⟩

theorem coherent_resolveField (key : String) : Coherent registry (resolveField registry key) where
  keeps h := (resolveField_run_some_eq_ok_iff.1 h).2
  opens {state field next bound} h hreach := by
    obtain ⟨found, rfl, hfound, _⟩ := resolveField_run_eq_ok_iff.1 h
    rwa [← reaches_some_iff.1 hreach]
  agrees {state bound field} hreach := by
    simp only [resolveField_run_eq_ok_iff]
    constructor
    · intro hsome
      obtain ⟨found, hfound, _, hrefers⟩ := hsome
      cases hfound
      exact ⟨some bound, ⟨bound, rfl, hreach, hrefers⟩, reaches_some_iff.2 rfl⟩
    · intro hrun
      obtain ⟨_, ⟨found, rfl, _, hrefers⟩, hend⟩ := hrun
      cases reaches_some_iff.1 hend
      exact ⟨bound, rfl, reaches_some_iff.2 rfl, hrefers⟩

theorem coherent_resolveTyped (key : String) (wanted : FieldType) (part : Part) :
    Coherent registry (resolveTyped registry key wanted part) := by
  unfold resolveTyped
  refine (coherent_resolveField key).bind fun field => ?_
  split
  · exact .pure field
  · exact .throw _

theorem resolveTyped_run_some_eq_ok_iff {key : String} {wanted : FieldType} {part : Part}
    {bound : Bound} {field : Field} {next : Option Bound} :
    (resolveTyped registry key wanted part).run (some bound) = .ok (field, next) ↔
      (bound.Refers key field ∧ field.fieldType = wanted) ∧ next = some bound := by
  unfold resolveTyped
  simp only [Check.run_bind_eq_ok_iff, resolveField_run_some_eq_ok_iff]
  constructor
  · intro hrun
    obtain ⟨found, _, ⟨hrefers, rfl⟩, hrun⟩ := hrun
    split at hrun
    next htype =>
      obtain ⟨rfl, rfl⟩ := Check.run_pure_eq_ok_iff.1 hrun
      exact ⟨⟨hrefers, htype⟩, rfl⟩
    next => exact (Check.run_throw_eq_ok_iff.1 hrun).elim
  · intro hresult
    obtain ⟨⟨hrefers, htype⟩, rfl⟩ := hresult
    refine ⟨field, _, ⟨hrefers, rfl⟩, ?_⟩
    rw [if_pos htype]
    exact Check.run_pure_eq_ok_iff.2 ⟨rfl, rfl⟩

end Query

end CampusQuery
