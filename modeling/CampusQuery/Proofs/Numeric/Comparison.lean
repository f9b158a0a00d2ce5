import CampusQuery.Proofs.Numeric.Positions
import Mathlib

/-!
# Comparing numbers

Numbers compare as their values do, the infinities being beyond all others. Only
a NaN has no place among them, and no operation of an aggregate makes one.
-/

namespace CampusQuery.Numeric.Binary64

/-! ## Places on the number line -/

/-- The place of a number among the values in units, between the infinities. -/
def place : Binary64 → WithBot (WithTop ℤ)
  | .finite negative magnitude => ((signedUnits negative magnitude : ℤ) : WithTop ℤ)
  | .infinite negative => if negative then ⊥ else ⊤
  | .nan => ⊥

theorem place_lt_place_iff {a b : Binary64} (ha : a ≠ .nan) (hb : b ≠ .nan) :
    a.place < b.place ↔ a.key < b.key := by
  cases a with
  | nan => exact absurd rfl ha
  | finite sign m =>
      obtain ⟨hlow, hhigh⟩ := abs_key_finite_lt sign m
      cases b with
      | nan => exact absurd rfl hb
      | finite other n =>
          refine WithBot.coe_lt_coe.trans (WithTop.coe_lt_coe.trans ?_)
          exact signedUnits_lt_iff sign other m n
      | infinite negative =>
          cases negative with
          | true => exact iff_of_false not_lt_bot (not_lt.2 hlow.le)
          | false => exact iff_of_true (WithBot.coe_lt_coe.2 (WithTop.coe_lt_top _)) hhigh
  | infinite negative =>
      cases b with
      | nan => exact absurd rfl hb
      | finite sign m =>
          obtain ⟨hlow, hhigh⟩ := abs_key_finite_lt sign m
          cases negative with
          | true => exact iff_of_true (WithBot.bot_lt_coe _) hlow
          | false => exact iff_of_false not_top_lt (not_lt.2 hhigh.le)
      | infinite other =>
          cases negative <;> cases other <;> decide

/-- Equivalent comparisons have one outcome. -/
theorem cmp_congr {α β : Type*} [LinearOrder α] [LinearOrder β] {a b : α} {x y : β}
    (hlt : a < b ↔ x < y) (hgt : b < a ↔ y < x) : cmp a b = cmp x y := by
  simp only [cmp, cmpUsing, hlt, hgt]

theorem compare?_eq_cmp {a b : Binary64} (ha : a ≠ .nan) (hb : b ≠ .nan) :
    a.compare? b = some (cmp a.place b.place) := by
  rw [compare?_eq_some ha hb, ← cmp_eq_compare,
    cmp_congr (place_lt_place_iff ha hb) (place_lt_place_iff hb ha)]

theorem numEq_self {x : Binary64} (hx : x ≠ .nan) : x.numEq x = true := by
  unfold numEq
  rw [compare?_eq_cmp hx hx, cmp_self_eq_eq, beq_self_eq_true]

theorem isAbove_iff_place {a b : Binary64} (ha : a ≠ .nan) (hb : b ≠ .nan) :
    a.isAbove b = true ↔ b.place < a.place :=
  (isAbove_iff_key ha hb).trans (place_lt_place_iff hb ha).symm

theorem isLevel_iff_place {a b : Binary64} (ha : a ≠ .nan) (hb : b ≠ .nan) :
    a.isLevel b = true ↔ a.place = b.place := by
  rw [isLevel_iff_key ha hb, eq_iff_le_not_lt, eq_iff_le_not_lt, ← not_lt, ← not_lt,
    place_lt_place_iff ha hb, place_lt_place_iff hb ha]

/-! ## Operations that make no NaN -/

theorem ne_nan_of_isFinite {x : Binary64} (hfinite : x.isFinite = true) : x ≠ .nan := by
  rintro rfl
  exact nomatch hfinite

theorem nearest_ne_nan (negative : Bool) (num den : Nat) : nearest negative num den ≠ .nan := by
  rw [nearest_eq]
  split <;> exact nofun

/-- Only opposite infinities add up to a NaN. -/
theorem add_ne_nan {x y : Binary64} (hx : x ≠ .nan) (hy : y.isFinite = true) : x + y ≠ .nan := by
  obtain ⟨b, n, rfl⟩ := isFinite_iff.1 hy
  cases x with
  | nan => exact absurd rfl hx
  | infinite negative => exact nofun
  | finite a m =>
      change (if signedUnits a m + signedUnits b n = 0 then _ else _) ≠ nan
      split
      · exact nofun
      · exact nearest_ne_nan _ _ _

theorem roundToHundredths_ne_nan {x : Binary64} (hx : x ≠ .nan) : x.roundToHundredths ≠ .nan := by
  cases x with
  | nan => exact absurd rfl hx
  | infinite negative => exact nofun
  | finite negative m => exact ne_nan_of_isFinite isFinite_roundToHundredths

/-- A machine word does not count so many that their number is infinite. -/
theorem div_ofNat_ne_nan {x : Binary64} (hx : x ≠ .nan) {n : Nat} (hpos : 0 < n)
    (hn : n < 2 ^ 64) : x / ofNat n ≠ .nan := by
  cases x with
  | nan => exact absurd rfl hx
  | finite negative m => exact ne_nan_of_isFinite (isFinite_div_ofNat _ hpos)
  | infinite negative =>
      obtain ⟨sign, m, hm, -⟩ := within_ofNat hn.le (by decide)
      rw [hm]
      exact nofun

/-! ## Comparing finite numbers -/

theorem place_of_isFinite {x : Binary64} (hx : x.isFinite = true) :
    x.place = ((x.valueUnits : ℤ) : WithTop ℤ) := by
  obtain ⟨negative, m, rfl⟩ := isFinite_iff.1 hx
  rfl

section Finite

variable {a b : Binary64} (ha : a.isFinite = true) (hb : b.isFinite = true)

include ha hb

/-- Finite numbers compare as their values. -/
theorem compare?_of_isFinite : a.compare? b = some (cmp a.valueUnits b.valueUnits) := by
  rw [compare?_eq_cmp (ne_nan_of_isFinite ha) (ne_nan_of_isFinite hb), place_of_isFinite ha,
    place_of_isFinite hb]
  have hcoe : ∀ m n : ℤ, (((m : WithTop ℤ) : WithBot (WithTop ℤ)) < (n : WithTop ℤ)) ↔ m < n :=
    fun _ _ => WithBot.coe_lt_coe.trans WithTop.coe_lt_coe
  exact congrArg some (cmp_congr (hcoe _ _) (hcoe _ _))

theorem numEq_iff_valueUnits : a.numEq b = true ↔ a.valueUnits = b.valueUnits := by
  rw [numEq_eq_isLevel]
  exact isLevel_iff_valueUnits ha hb

theorem valueUnits_max : (a.max b).valueUnits = Max.max a.valueUnits b.valueUnits := by
  unfold Binary64.max
  rw [compare?_of_isFinite ha hb]
  rcases lt_trichotomy a.valueUnits b.valueUnits with hlt | heq | hgt
  · rw [(cmp_eq_lt_iff _ _).2 hlt, max_eq_right hlt.le]
  · rw [(cmp_eq_eq_iff _ _).2 heq, heq, max_self]
  · rw [(cmp_eq_gt_iff _ _).2 hgt, max_eq_left hgt.le]

theorem valueUnits_min : (a.min b).valueUnits = Min.min a.valueUnits b.valueUnits := by
  unfold Binary64.min
  rw [compare?_of_isFinite ha hb]
  rcases lt_trichotomy a.valueUnits b.valueUnits with hlt | heq | hgt
  · rw [(cmp_eq_lt_iff _ _).2 hlt, min_eq_left hlt.le]
  · rw [(cmp_eq_eq_iff _ _).2 heq, heq, min_self]
  · rw [(cmp_eq_gt_iff _ _).2 hgt, min_eq_right hgt.le]

end Finite

end CampusQuery.Numeric.Binary64
