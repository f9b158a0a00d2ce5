import CampusQuery.Proofs.Numeric.Closest

/-!
# Where numbers lie

`Binary64.isAbove` and `Binary64.isLevel` say by their values how two numbers lie
to each other. The order and the equality of numbers are decided by other means,
but come to the same.
-/

namespace CampusQuery.Numeric.Binary64

theorem units_lt_units_iff {m n : Nat} : units m < units n ↔ m < n := by
  constructor
  · intro hlt
    by_contra hge
    exact absurd (units_le_units (Nat.le_of_not_lt hge)) (Nat.not_le_of_lt hlt)
  · intro hlt
    by_contra hge
    -- equal values would round to one magnitude
    have hsame : units m = units n := Nat.le_antisymm (units_le_units hlt.le) (Nat.le_of_not_lt hge)
    have hbelow : nearestMagnitude (units n) 1 ≤ m :=
      nearestMagnitude_le Nat.one_pos (by rw [hsame, Nat.one_mul])
    have habove : n ≤ nearestMagnitude (units n) 1 :=
      le_nearestMagnitude Nat.one_pos (by rw [Nat.one_mul])
    omega

theorem signedUnits_lt_iff (a b : Bool) (m n : Nat) :
    signedUnits a m < signedUnits b n ↔
      (if a then -(m : Int) else m) < if b then -(n : Int) else n := by
  have hzero : units 0 = 0 := rfl
  have hlt := @units_lt_units_iff m n
  have hgt := @units_lt_units_iff n m
  have hm := @units_lt_units_iff 0 m
  have hn := @units_lt_units_iff 0 n
  unfold signedUnits
  cases a <;> cases b <;> simp only [if_true, Bool.false_eq_true, if_false] <;> omega

theorem abs_key_finite_lt (negative : Bool) (m : Fin infinityMagnitude) :
    -(infinityMagnitude : Int) < (finite negative m).key ∧
      (finite negative m).key < infinityMagnitude := by
  have hm := m.isLt
  unfold key
  dsimp only
  split <;> omega

/-- A NaN compares with nothing. -/
theorem compare?_eq_none {a b : Binary64} (hnan : a = .nan ∨ b = .nan) : a.compare? b = none := by
  rcases hnan with rfl | rfl
  · rfl
  · cases a <;> rfl

/-- Whether a number lies above another. The infinities lie beyond all values. -/
def isAbove : Binary64 → Binary64 → Bool
  | .finite a m, .finite b n => signedUnits b n < signedUnits a m
  | .finite .., .infinite negative => negative
  | .infinite negative, .finite .. => !negative
  | .infinite a, .infinite b => !a && b
  | _, _ => false

/-- Whether two numbers lie at one place. -/
def isLevel : Binary64 → Binary64 → Bool
  | .finite a m, .finite b n => signedUnits a m = signedUnits b n
  | .infinite a, .infinite b => a == b
  | _, _ => false

theorem isAbove_iff_key {a b : Binary64} (ha : a ≠ .nan) (hb : b ≠ .nan) :
    a.isAbove b = true ↔ b.key < a.key := by
  cases a with
  | nan => exact absurd rfl ha
  | finite sign m =>
      obtain ⟨hlow, hhigh⟩ := abs_key_finite_lt sign m
      cases b with
      | nan => exact absurd rfl hb
      | finite other n => exact decide_eq_true_iff.trans (signedUnits_lt_iff other sign n m)
      | infinite negative =>
          cases negative with
          | true => exact iff_of_true rfl hlow
          | false => exact iff_of_false Bool.false_ne_true (Int.not_lt.2 (Int.le_of_lt hhigh))
  | infinite negative =>
      cases b with
      | nan => exact absurd rfl hb
      | finite other n =>
          obtain ⟨hlow, hhigh⟩ := abs_key_finite_lt other n
          cases negative with
          | true => exact iff_of_false Bool.false_ne_true (Int.not_lt.2 (Int.le_of_lt hlow))
          | false => exact iff_of_true rfl hhigh
      | infinite other => cases negative <;> cases other <;> decide

theorem isLevel_iff_key {a b : Binary64} (ha : a ≠ .nan) (hb : b ≠ .nan) :
    a.isLevel b = true ↔ a.key = b.key := by
  cases a with
  | nan => exact absurd rfl ha
  | finite sign m =>
      obtain ⟨hlow, hhigh⟩ := abs_key_finite_lt sign m
      cases b with
      | nan => exact absurd rfl hb
      | finite other n =>
          have hbelow := signedUnits_lt_iff sign other m n
          have habove := signedUnits_lt_iff other sign n m
          refine decide_eq_true_iff.trans ?_
          change signedUnits sign m = signedUnits other n ↔
            (if sign then -(m.val : Int) else m.val) = if other then -(n.val : Int) else n.val
          omega
      | infinite negative =>
          refine iff_of_false Bool.false_ne_true fun hsame => ?_
          cases negative with
          | true => exact Int.ne_of_gt hlow hsame
          | false => exact Int.ne_of_lt hhigh hsame
  | infinite negative =>
      cases b with
      | nan => exact absurd rfl hb
      | finite other n =>
          obtain ⟨hlow, hhigh⟩ := abs_key_finite_lt other n
          refine iff_of_false Bool.false_ne_true fun hsame => ?_
          cases negative with
          | true => exact Int.ne_of_lt hlow hsame
          | false => exact Int.ne_of_gt hhigh hsame
      | infinite other => cases negative <;> cases other <;> decide

theorem compare?_eq_some {a b : Binary64} (ha : a ≠ .nan) (hb : b ≠ .nan) :
    a.compare? b = some (compare a.key b.key) := by
  cases a <;> cases b <;> first | rfl | exact absurd rfl ha | exact absurd rfl hb

/-- Being less is lying below. -/
theorem lt_eq_isAbove (a b : Binary64) : a.lt b = b.isAbove a := by
  by_cases hnan : a = .nan ∨ b = .nan
  · rw [lt, compare?_eq_none hnan]
    rcases hnan with rfl | rfl
    · cases b <;> rfl
    · rfl
  · obtain ⟨ha, hb⟩ := not_or.1 hnan
    rw [Bool.eq_iff_iff, lt, compare?_eq_some ha hb, beq_iff_eq, Option.some.injEq,
      Int.compare_eq_lt, isAbove_iff_key hb ha]

/-- Being numerically equal is lying at one place. -/
theorem numEq_eq_isLevel (a b : Binary64) : a.numEq b = a.isLevel b := by
  by_cases hnan : a = .nan ∨ b = .nan
  · rw [numEq, compare?_eq_none hnan]
    rcases hnan with rfl | rfl
    · rfl
    · cases a <;> rfl
  · obtain ⟨ha, hb⟩ := not_or.1 hnan
    rw [Bool.eq_iff_iff, numEq, compare?_eq_some ha hb, beq_iff_eq, Option.some.injEq,
      Int.compare_eq_eq, isLevel_iff_key ha hb]

section Finite

variable {a b : Binary64} (ha : a.isFinite = true) (hb : b.isFinite = true)

include ha hb

theorem isAbove_iff_valueUnits : a.isAbove b = true ↔ b.valueUnits < a.valueUnits := by
  obtain ⟨sign, m, rfl⟩ := isFinite_iff.1 ha
  obtain ⟨other, n, rfl⟩ := isFinite_iff.1 hb
  exact decide_eq_true_iff

theorem isLevel_iff_valueUnits : a.isLevel b = true ↔ a.valueUnits = b.valueUnits := by
  obtain ⟨sign, m, rfl⟩ := isFinite_iff.1 ha
  obtain ⟨other, n, rfl⟩ := isFinite_iff.1 hb
  exact decide_eq_true_iff

end Finite

end CampusQuery.Numeric.Binary64
