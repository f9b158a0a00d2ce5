import CampusQuery.Json.Basic
import CampusQuery.Proofs.Numeric.Finiteness

/-!
# Nothing is closer than the nearest number

Rounding keeps the bits of the last place that the result has. Every other
finite number either lies on the grid of that place or below its binade, and so
is at least as far from what is rounded.
-/

namespace CampusQuery.Numeric

/-- No multiple of the divisor is closer to the dividend than the rounded one. -/
theorem natAbs_roundDiv_sub_le (tie : Tie) (num n : Nat) {den : Nat} (hden : 0 < den) :
    ((roundDiv tie num den * den : Nat) - (num : Int)).natAbs ≤
      ((n * den : Nat) - (num : Int)).natAbs := by
  have hover := roundDiv_mul_le tie num den
  have hunder := le_roundDiv_mul tie num hden
  -- another multiple is a whole divisor away from the rounded one
  rcases Nat.lt_trichotomy n (roundDiv tie num den) with hlt | rfl | hlt
  · have hstep : (n + 1) * den ≤ roundDiv tie num den * den := Nat.mul_le_mul_right den hlt
    rw [Nat.succ_mul] at hstep
    omega
  · exact Nat.le_refl _
  · have hstep : (roundDiv tie num den + 1) * den ≤ n * den := Nat.mul_le_mul_right den hlt
    rw [Nat.succ_mul] at hstep
    omega

namespace Binary64

/-- The magnitude of a significand of 53 bits, or of the first one that needs more. -/
theorem units_significand (e : Nat) {t : Nat} (ht : t ≤ fractionCount) :
    units (e * fractionCount + (fractionCount + t)) = (fractionCount + t) * 2 ^ e := by
  have hpositive : 0 < fractionCount := by decide
  rcases Nat.lt_or_eq_of_le ht with hlt | rfl
  · have hsum : e * fractionCount + (fractionCount + t) = (e + 1) * fractionCount + t := by ring
    have hfield : exponentField (e * fractionCount + (fractionCount + t)) = e + 1 := by
      rw [exponentField, hsum, Nat.mul_comm, Nat.mul_add_div hpositive, Nat.div_eq_of_lt hlt]
    have hfraction : fraction (e * fractionCount + (fractionCount + t)) = t := by
      rw [fraction, hsum, Nat.mul_comm, Nat.mul_add_mod, Nat.mod_eq_of_lt hlt]
    rw [units_of_normal hfield, hfraction]
  · have hsum : e * fractionCount + (fractionCount + fractionCount) = (e + 2) * fractionCount := by
      ring
    have hfield : exponentField (e * fractionCount + (fractionCount + fractionCount)) = e + 1 + 1 := by
      rw [exponentField, hsum, Nat.mul_div_cancel _ hpositive]
    have hfraction : fraction (e * fractionCount + (fractionCount + fractionCount)) = 0 := by
      rw [fraction, hsum, Nat.mul_mod_left]
    rw [units_of_normal hfield, hfraction, Nat.pow_succ]
    ring

/-- The value that is rounded to: the rounded significand in the place of its last bit. -/
theorem units_nearestMagnitude (num : Nat) {den : Nat} (hden : 0 < den) :
    units (nearestMagnitude num den) =
      roundDiv .toEven num (den * 2 ^ shiftOf num den) * 2 ^ shiftOf num den := by
  have hhigh := roundDiv_shiftOf_le num hden
  unfold nearestMagnitude
  by_cases hnormal : fractionCount ≤ roundDiv .toEven num (den * 2 ^ shiftOf num den)
  · obtain ⟨t, ht⟩ := Nat.exists_eq_add_of_le hnormal
    rw [ht]
    exact units_significand _ (by omega)
  · -- a shorter significand only stands in the last place there is
    have hshift : shiftOf num den = 0 := by
      by_contra hne
      exact hnormal (le_roundDiv_shiftOf hden (Nat.pos_of_ne_zero hne))
    rw [hshift] at hnormal ⊢
    have hfield : exponentField (roundDiv .toEven num (den * 2 ^ 0)) = 0 :=
      Nat.div_eq_of_lt (Nat.lt_of_not_le hnormal)
    rw [Nat.zero_mul, Nat.zero_add, units_of_subnormal hfield]
    ring

/-- A magnitude lies on the grid of a place, or below the binade that ends in it. -/
theorem units_on_grid_or_below (m s : Nat) :
    (∃ n, units m = n * 2 ^ s) ∨ 0 < s ∧ units m ≤ fractionCount * 2 ^ s := by
  have hfraction := fraction_lt m
  rcases hfield : exponentField m with _ | e
  · rw [units_of_subnormal hfield]
    rcases Nat.eq_zero_or_pos s with rfl | hs
    · exact .inl ⟨m, by ring⟩
    · have hm : m < fractionCount := by
        have hsplit := exponentField_mul_add_fraction m
        rw [hfield] at hsplit
        omega
      exact .inr ⟨hs, hm.le.trans (Nat.le_mul_of_pos_right _ (Nat.two_pow_pos s))⟩
  · rw [units_of_normal hfield]
    rcases Nat.lt_or_ge e s with hlt | hle
    · obtain ⟨d, rfl⟩ := Nat.exists_eq_add_of_lt hlt
      refine .inr ⟨by omega, ?_⟩
      have hdouble : fractionCount * 2 ^ (e + d + 1) = 2 * fractionCount * 2 ^ e * 2 ^ d := by ring
      have htwice : (fractionCount + fraction m) * 2 ^ e ≤ 2 * fractionCount * 2 ^ e :=
        Nat.mul_le_mul_right _ (by omega)
      rw [hdouble]
      exact htwice.trans (Nat.le_mul_of_pos_right _ (Nat.two_pow_pos d))
    · obtain ⟨d, rfl⟩ := Nat.exists_eq_add_of_le hle
      exact .inl ⟨(fractionCount + fraction m) * 2 ^ d, by ring⟩

/-- No magnitude is closer to a quotient than the one it is rounded to. -/
theorem natAbs_nearestMagnitude_sub_le (num m : Nat) {den : Nat} (hden : 0 < den) :
    ((units (nearestMagnitude num den) * den : Nat) - (num : Int)).natAbs ≤
      ((units m * den : Nat) - (num : Int)).natAbs := by
  have hpositive : 0 < den * 2 ^ shiftOf num den := Nat.mul_pos hden (Nat.two_pow_pos _)
  have hplace : ∀ n : Nat, n * 2 ^ shiftOf num den * den = n * (den * 2 ^ shiftOf num den) := by
    intro n
    ring
  rw [units_nearestMagnitude num hden, hplace]
  rcases units_on_grid_or_below m (shiftOf num den) with ⟨n, hgrid⟩ | ⟨hshift, hbelow⟩
  · rw [hgrid, hplace]
    exact natAbs_roundDiv_sub_le .toEven num n hpositive
  · -- the first number of the binade is on the grid and lies between the two
    have hfirst := natAbs_roundDiv_sub_le .toEven num fractionCount hpositive
    have hbinade : fractionCount * (den * 2 ^ shiftOf num den) ≤ num := by
      refine Eq.trans_le ?_ (le_num_of_shiftOf hshift)
      rw [Nat.pow_add, fractionCount_eq]
      ring
    have hless : units m * den ≤ fractionCount * (den * 2 ^ shiftOf num den) := by
      rw [← hplace]
      exact Nat.mul_le_mul_right den hbelow
    omega

/-! ## Numbers with a sign -/

/-- The value of a finite number in units of `2 ^ -1074`. -/
def valueUnits : Binary64 → Int
  | .finite negative magnitude => signedUnits negative magnitude
  | _ => 0

/-- A finite number than which no finite number is closer to a value, given in units. -/
structure IsNearest (x : Binary64) (value : Int) : Prop where
  isFinite : x.isFinite = true
  closest : ∀ y : Binary64, y.isFinite = true →
    (x.valueUnits - value).natAbs ≤ (y.valueUnits - value).natAbs

theorem isNearest_self {x : Binary64} (hfinite : x.isFinite = true) : x.IsNearest x.valueUnits :=
  ⟨hfinite, by simp⟩

/-- With the sign of a value, a number closest to its size is closest to the value: one of the other
sign is no closer than zero is. -/
theorem natAbs_signed_sub_le {value : Int} {rounded found : Nat} (other : Bool)
    (hclosest : ((rounded : Int) - value.natAbs).natAbs ≤ ((found : Int) - value.natAbs).natAbs)
    (hzero : ((rounded : Int) - value.natAbs).natAbs ≤ value.natAbs) :
    ((if value < 0 then -(rounded : Int) else rounded) - value).natAbs ≤
      ((if other then -(found : Int) else found) - value).natAbs := by
  cases other
  · simp only [Bool.false_eq_true, if_false]
    split <;> omega
  · simp only [if_true]
    split <;> omega

theorem isNearest_ofInt {n : Int} (hfinite : (ofInt n).isFinite = true) :
    (ofInt n).IsNearest (n * unitsPerOne) := by
  obtain ⟨negative, x, hx⟩ := isFinite_iff.1 hfinite
  have hparts : negative = decide (n < 0) ∧
      x.val = nearestMagnitude (n.natAbs * unitsPerOne) 1 := by
    rw [ofInt, nearest_eq] at hx
    split at hx
    · cases hx
      exact ⟨rfl, rfl⟩
    · exact nomatch hx
  obtain ⟨rfl, hmagnitude⟩ := hparts
  have hsize : n.natAbs * unitsPerOne = (n * unitsPerOne).natAbs := by
    rw [Int.natAbs_mul, Int.natAbs_natCast]
  have hsign : n < 0 ↔ n * unitsPerOne < 0 :=
    ⟨fun hlt => Int.mul_neg_of_neg_of_pos hlt (Int.natCast_pos.2 unitsPerOne_pos),
      fun hlt => by_contra fun hnot => absurd hlt
        (Int.not_lt.2 (Int.mul_nonneg (Int.not_lt.1 hnot) (Int.natCast_nonneg _)))⟩
  refine ⟨hfinite, fun y hy => ?_⟩
  obtain ⟨other, m, rfl⟩ := isFinite_iff.1 hy
  have hnothing : units 0 = 0 := by decide
  have hclosest := natAbs_nearestMagnitude_sub_le (n.natAbs * unitsPerOne) m Nat.one_pos
  have hzero := natAbs_nearestMagnitude_sub_le (n.natAbs * unitsPerOne) 0 Nat.one_pos
  rw [← hmagnitude, hsize, Nat.mul_one, Nat.mul_one] at hclosest
  rw [← hmagnitude, hsize, hnothing, Nat.mul_one, Nat.mul_one, Int.natCast_zero, Int.zero_sub,
    Int.natAbs_neg, Int.natAbs_natCast] at hzero
  rw [hx]
  simp only [valueUnits, signedUnits, decide_eq_true_eq, hsign]
  exact natAbs_signed_sub_le other hclosest hzero

end Binary64

end CampusQuery.Numeric

namespace CampusQuery.JsonNumber

open Numeric

/-- The value of a JSON number in units of `2 ^ -1074`. -/
def valueUnits : JsonNumber → Int
  | .integer value => value * Binary64.unitsPerOne
  | .float value => value.valueUnits

theorem isNearest_toBinary64 {n : JsonNumber} (hfinite : n.toBinary64.isFinite = true) :
    n.toBinary64.IsNearest n.valueUnits :=
  match n with
  | .integer _ => Binary64.isNearest_ofInt hfinite
  | .float _ => Binary64.isNearest_self hfinite

end CampusQuery.JsonNumber
