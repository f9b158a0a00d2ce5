import CampusQuery.Proofs.Query.FiniteCells

/-!
# When records are of one group

Among finite numbers only the two zeros are one value of two numbers, and keys
tell no zeros apart. So records have one key exactly if they have equal values
in every group field, and the groups are the classes of that relation.
-/

namespace CampusQuery

namespace Numeric.Binary64

theorem numEq_finite_iff {a b : Bool} {m n : Fin infinityMagnitude} :
    (finite a m).numEq (finite b n) = true ↔ (finite a m).key = (finite b n).key := by
  unfold numEq compare?
  rw [beq_iff_eq, Option.some.injEq, compare_eq_iff_eq]

theorem natAbs_key (negative : Bool) (m : Fin infinityMagnitude) :
    (finite negative m).key.natAbs = m.val := by
  cases negative <;> simp [key]

/-- What is left of a finite number is its magnitude and whether it is below zero. -/
theorem normalizeZero_finite (negative : Bool) (m : Fin infinityMagnitude) :
    (finite negative m).normalizeZero = finite (decide ((finite negative m).key < 0)) m := by
  have hkey := natAbs_key negative m
  unfold normalizeZero isZero
  by_cases hzero : m.val = 0
  · have hm : m = ⟨0, by decide⟩ := Fin.ext hzero
    have hnot : ¬ (finite negative m).key < 0 := by omega
    rw [if_pos (by simpa using hzero), decide_eq_false hnot, hm]
    rfl
  · rw [if_neg (by simpa using hzero)]
    cases negative with
    | false => simp [key]
    | true => simp [key, Nat.pos_iff_ne_zero, hzero]

theorem normalizeZero_eq_iff {a b : Binary64} (ha : a.isFinite = true) (hb : b.isFinite = true) :
    a.normalizeZero = b.normalizeZero ↔ a.numEq b = true := by
  obtain ⟨s, m, rfl⟩ := isFinite_iff.1 ha
  obtain ⟨t, n, rfl⟩ := isFinite_iff.1 hb
  have hm := natAbs_key s m
  have hn := natAbs_key t n
  rw [numEq_finite_iff, normalizeZero_finite, normalizeZero_finite, finite.injEq, decide_eq_decide,
    Fin.ext_iff]
  omega

end Numeric.Binary64

/-- Whether two values are equal, as texts or as numbers. No text equals a number. -/
def Value.same : Value → Value → Bool
  | .text a, .text b => a = b
  | .number a, .number b => a.numEq b
  | _, _ => false

namespace Query

theorem KeyPart.ofValue_eq_iff {a b : Value} (ha : a.Finite) (hb : b.Finite) :
    ofValue a = ofValue b ↔ a.same b = true := by
  cases a with
  | text a =>
      cases b with
      | text b => simp [ofValue, Value.same]
      | number b => simp [ofValue, Value.same]
  | number a =>
      cases b with
      | text b => simp [ofValue, Value.same]
      | number b =>
          rw [ofValue, ofValue, KeyPart.number.injEq]
          exact Numeric.Binary64.normalizeZero_eq_iff ha hb

/-! ## Keys of records -/

/-- Whether two records have equal values in every one of some fields. -/
def sameIn (group : List Field) (a b : Record) : Bool :=
  group.all fun field =>
    match a.get? field, b.get? field with
    | some x, some y => x.same y
    | _, _ => false

theorem exists_same_of_sameIn {group : List Field} {a b : Record}
    (hsame : sameIn group a b = true) {field : Field} (hfield : field ∈ group) {value : Value}
    (hvalue : a.get? field = some value) :
    ∃ own, b.get? field = some own ∧ value.same own = true := by
  have hshared := List.all_eq_true.1 hsame field hfield
  rw [hvalue] at hshared
  split at hshared
  next x y hx hy =>
    cases hx
    exact ⟨y, hy, hshared⟩
  next => exact nomatch hshared

/-- Records that have the group fields have one key exactly if their values have the same
identity in every group field. -/
theorem keyOf_eq_iff {group : List Field} {a b : Record}
    (ha : ∀ field ∈ group, field.kind = a.kind) (hb : ∀ field ∈ group, field.kind = b.kind) :
    keyOf group a = keyOf group b ↔
      ∀ field ∈ group,
        (a.get? field).map KeyPart.ofValue = (b.get? field).map KeyPart.ofValue := by
  induction group with
  | nil => simp [keyOf]
  | cons field rest ih =>
      obtain ⟨x, hx⟩ := exists_readField (ha field List.mem_cons_self)
      obtain ⟨y, hy⟩ := exists_readField (hb field List.mem_cons_self)
      rw [readField_eq_ok_iff] at hx hy
      have hrest := ih (fun other hother => ha other (List.mem_cons_of_mem _ hother))
        fun other hother => hb other (List.mem_cons_of_mem _ hother)
      rw [List.forall_mem_cons, ← hrest]
      simp [keyOf, hx, hy]

theorem sameIn_iff {group : List Field} {a b : Record}
    (ha : ∀ field ∈ group, field.kind = a.kind) (hb : ∀ field ∈ group, field.kind = b.kind)
    (hafinite : a.hasFiniteNumbers = true) (hbfinite : b.hasFiniteNumbers = true) :
    sameIn group a b = true ↔ keyOf group a = keyOf group b := by
  rw [keyOf_eq_iff ha hb, sameIn, List.all_eq_true]
  refine forall₂_congr fun field hfield => ?_
  obtain ⟨x, hx⟩ := exists_readField (ha field hfield)
  obtain ⟨y, hy⟩ := exists_readField (hb field hfield)
  rw [readField_eq_ok_iff] at hx hy
  rw [hx, hy, Option.map_some, Option.map_some, Option.some.injEq]
  exact (KeyPart.ofValue_eq_iff (Record.finite_of_get? hafinite hx)
    (Record.finite_of_get? hbfinite hy)).symm

end Query

end CampusQuery
