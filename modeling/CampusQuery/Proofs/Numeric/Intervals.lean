import CampusQuery.Numeric.Shortest
import CampusQuery.Proofs.Numeric.Positions
import Mathlib.Tactic.Linarith

/-!
# What rounds to a number

The quotients that round to a magnitude fill an interval, which ends in the middle
between the magnitude and its neighbours. The ends belong to the even one of two
neighbours.
-/

namespace CampusQuery.Numeric

/-- A quotient that is rounded to an odd number is no tie. -/
theorem roundDiv_close_of_odd {num den : Nat} (hden : 0 < den)
    (hodd : roundDiv .toEven num den % 2 = 1) :
    2 * (roundDiv .toEven num den * den) < 2 * num + den ∧
      2 * num < 2 * (roundDiv .toEven num den * den) + den := by
  have hsplit := Nat.div_add_mod num den
  have hrest := Nat.mod_lt num hden
  unfold roundDiv at hodd ⊢
  dsimp only at hodd ⊢
  rw [Nat.mul_comm den] at hsplit
  split at hodd
  next hlow =>
    rw [if_pos hlow]
    omega
  next hlow =>
    split at hodd
    next hhigh =>
      rw [if_neg hlow, if_pos hhigh, Nat.add_mul, Nat.one_mul]
      omega
    next => omega

namespace Binary64

open ShortDecimal (lowerEnd upperEnd)

/-! ## Neighbours -/

/-- The next magnitude stays in the binade or begins the next one. -/
theorem exponentField_succ (m : Nat) :
    fraction (m + 1) = fraction m + 1 ∧ exponentField (m + 1) = exponentField m ∨
      fraction m + 1 = fractionCount ∧ fraction (m + 1) = 0 ∧
        exponentField (m + 1) = exponentField m + 1 := by
  have hcount : fractionCount = 4503599627370496 := rfl
  unfold fraction exponentField
  rw [hcount]
  omega

/-- The gap is doubled where a binade begins, except for the first one. -/
theorem gap_succ (m : Nat) :
    fraction (m + 1) = 0 ∧ 1 < exponentField (m + 1) ∧ gap (m + 1) = 2 * gap m ∨
      ¬ (fraction (m + 1) = 0 ∧ 1 < exponentField (m + 1)) ∧ gap (m + 1) = gap m := by
  unfold gap
  rcases exponentField_succ m with ⟨hfraction, hfield⟩ | ⟨-, hfraction, hfield⟩
  · exact .inr ⟨fun hstart => by omega, by rw [hfield]⟩
  · rw [hfield]
    rcases Nat.eq_zero_or_pos (exponentField m) with hzero | hpos
    · exact .inr ⟨fun hstart => by omega, by rw [hzero]⟩
    · refine .inl ⟨hfraction, by omega, ?_⟩
      obtain ⟨e, he⟩ := Nat.exists_eq_add_of_lt hpos
      rw [he]
      exact Nat.pow_succ'

theorem units_succ (m : Nat) : units (m + 1) = units m + gap m := by
  have hm := exponentField_mul_add_fraction m
  have hfraction := fraction_lt m
  rcases hfield : exponentField m with _ | e
  · rw [hfield, Nat.zero_mul, Nat.zero_add] at hm
    have hgap : gap m = 1 := by rw [gap, hfield]
    rw [units_of_subnormal hfield, hgap]
    rcases exponentField_succ m with ⟨-, hsame⟩ | ⟨hlast, -, -⟩
    · exact units_of_subnormal (hsame.trans hfield)
    · have hfirst : units fractionCount = fractionCount := by decide +kernel
      rw [← hm, hlast, hfirst]
  · have hsum : m = e * fractionCount + (fractionCount + fraction m) := by
      rw [hfield, Nat.succ_mul] at hm
      omega
    have hgap : gap m = 2 ^ e := by rw [gap, hfield]; rfl
    have hnext := units_significand e (Nat.succ_le_of_lt hfraction)
    rw [Nat.add_succ, Nat.add_succ, ← hsum, Nat.succ_mul] at hnext
    rw [hnext, units_of_normal hfield, hgap]

theorem upperEnd_eq (m : Nat) : upperEnd m = 2 * (units m + units (m + 1)) := by
  rw [units_succ, upperEnd]
  ring

/-- Neighbouring intervals have a common end. -/
theorem lowerEnd_succ (m : Nat) : lowerEnd (m + 1) = upperEnd m := by
  unfold lowerEnd upperEnd
  dsimp only
  rw [units_succ]
  rcases gap_succ m with ⟨hfraction, hfield, hgap⟩ | ⟨hsame, hgap⟩
  · rw [if_pos ⟨hfraction, hfield⟩, hgap]
    omega
  · rw [if_neg hsame, hgap]
    omega

theorem lowerEnd_zero : lowerEnd 0 = 0 := rfl

theorem upperEnd_lt_upperEnd {m n : Nat} (hlt : m < n) : upperEnd m < upperEnd n := by
  have hhere := units_lt_units_iff.2 hlt
  have hnext := units_lt_units_iff.2 (Nat.add_lt_add_right hlt 1)
  rw [upperEnd_eq, upperEnd_eq]
  omega

/-! ## Intervals -/

/-- A quotient of units lies in the interval of a magnitude. -/
def InInterval (m num den : Nat) : Prop :=
  if m % 2 = 0 then lowerEnd m * den ≤ 4 * num ∧ 4 * num ≤ upperEnd m * den
  else lowerEnd m * den < 4 * num ∧ 4 * num < upperEnd m * den

namespace InInterval

variable {m n num den : Nat}

theorem le_upperEnd (hin : InInterval m num den) : 4 * num ≤ upperEnd m * den := by
  unfold InInterval at hin
  split at hin
  · exact hin.2
  · exact hin.2.le

theorem lowerEnd_le (hin : InInterval m num den) : lowerEnd m * den ≤ 4 * num := by
  unfold InInterval at hin
  split at hin
  · exact hin.1
  · exact hin.1.le

/-- No quotient lies in the interval of a greater magnitude as well. -/
theorem not_lt (hden : 0 < den) (hm : InInterval m num den) (hn : InInterval n num den) :
    ¬ m < n := by
  intro hlt
  obtain ⟨k, rfl⟩ := Nat.exists_eq_add_of_lt hlt
  have hlow := hn.lowerEnd_le
  have hhigh := hm.le_upperEnd
  rw [lowerEnd_succ] at hlow
  rcases Nat.eq_zero_or_pos k with rfl | hpos
  · -- the common end belongs to one neighbour only
    rw [Nat.add_zero] at hlow hn
    unfold InInterval at hm hn
    rw [lowerEnd_succ] at hn
    split at hm <;> split at hn <;> omega
  · have hends : upperEnd m < upperEnd (m + k) := upperEnd_lt_upperEnd (by omega)
    have hmul := Nat.mul_lt_mul_of_pos_right hends hden
    omega

theorem zero (den : Nat) : InInterval 0 0 den := by
  unfold InInterval
  simp [lowerEnd_zero]

theorem unique (hden : 0 < den) (hm : InInterval m num den) (hn : InInterval n num den) : m = n :=
  Nat.le_antisymm (Nat.le_of_not_lt (hn.not_lt hden hm)) (Nat.le_of_not_lt (hm.not_lt hden hn))

end InInterval

section Rounding

variable (num : Nat) {den : Nat} (hden : 0 < den)

include hden

/-- The number that is rounded to is as close as its neighbours. -/
theorem nearestMagnitude_between_ends :
    lowerEnd (nearestMagnitude num den) * den ≤ 4 * num ∧
      4 * num ≤ upperEnd (nearestMagnitude num den) * den := by
  have hclosest := fun m => natAbs_nearestMagnitude_sub_le num m hden
  generalize nearestMagnitude num den = n at hclosest
  constructor
  · rcases n with _ | k
    · rw [lowerEnd_zero, Nat.zero_mul]
      exact Nat.zero_le _
    · have hbelow := hclosest k
      have hless := Nat.mul_lt_mul_of_pos_right (units_lt_units_iff.2 (Nat.lt_add_one k)) hden
      rw [lowerEnd_succ, upperEnd_eq, Nat.mul_assoc, Nat.add_mul]
      omega
  · have habove := hclosest (n + 1)
    have hless := Nat.mul_lt_mul_of_pos_right (units_lt_units_iff.2 (Nat.lt_add_one n)) hden
    rw [upperEnd_eq, Nat.mul_assoc, Nat.add_mul]
    omega

/-- An odd magnitude is as far from its neighbours as its last place says. -/
theorem gap_nearestMagnitude_of_odd (hodd : nearestMagnitude num den % 2 = 1) :
    gap (nearestMagnitude num den) = 2 ^ shiftOf num den ∧
      roundDiv .toEven num (den * 2 ^ shiftOf num den) % 2 = 1 := by
  have hcount : fractionCount = 4503599627370496 := rfl
  have hhigh := roundDiv_shiftOf_le num hden
  have hlow := @le_roundDiv_shiftOf num den hden
  unfold nearestMagnitude at hodd ⊢
  generalize roundDiv .toEven num (den * 2 ^ shiftOf num den) = rounded at *
  generalize shiftOf num den = shift at *
  have hrounded : rounded % 2 = 1 := by
    rw [hcount] at hodd
    omega
  refine ⟨?_, hrounded⟩
  have hfield : exponentField (shift * fractionCount + rounded) - 1 = shift := by
    unfold exponentField
    rw [hcount] at hhigh hlow ⊢
    omega
  rw [gap, hfield]
  rfl

theorem inInterval_nearestMagnitude : InInterval (nearestMagnitude num den) num den := by
  obtain ⟨hlow, hhigh⟩ := nearestMagnitude_between_ends num hden
  unfold InInterval
  split
  next => exact ⟨hlow, hhigh⟩
  next hnot =>
    -- an odd magnitude has not been rounded to from the middle
    have hodd : nearestMagnitude num den % 2 = 1 := by omega
    obtain ⟨hgap, hrounded⟩ := gap_nearestMagnitude_of_odd num hden hodd
    obtain ⟨hover, hunder⟩ :=
      roundDiv_close_of_odd (Nat.mul_pos hden (Nat.two_pow_pos _)) hrounded
    have hunits := units_nearestMagnitude num hden
    have hfraction : ¬ (fraction (nearestMagnitude num den) = 0 ∧
        1 < exponentField (nearestMagnitude num den)) := by
      rintro ⟨hfraction, -⟩
      have hcount : fractionCount = 4503599627370496 := rfl
      rw [fraction, hcount] at hfraction
      omega
    have hplace : units (nearestMagnitude num den) * den =
        roundDiv .toEven num (den * 2 ^ shiftOf num den) * (den * 2 ^ shiftOf num den) := by
      rw [hunits]
      ring
    have hpositive : 0 < roundDiv .toEven num (den * 2 ^ shiftOf num den) := by omega
    have hleast := Nat.le_mul_of_pos_left (den * 2 ^ shiftOf num den) hpositive
    rw [← hplace] at hover hunder hleast
    unfold lowerEnd upperEnd
    rw [if_neg hfraction, hgap, Nat.sub_mul, Nat.add_mul, Nat.mul_assoc 4, Nat.mul_assoc 2,
      Nat.mul_comm (2 ^ _) den]
    omega

end Rounding

/-- A quotient is rounded to the magnitude in whose interval it lies. -/
theorem nearestMagnitude_eq_iff {num den m : Nat} (hden : 0 < den) :
    nearestMagnitude num den = m ↔ InInterval m num den := by
  constructor
  · rintro rfl
    exact inInterval_nearestMagnitude num hden
  · exact fun hin => (inInterval_nearestMagnitude num hden).unique hden hin

theorem nearest_of_inInterval (negative : Bool) {num den : Nat} {m : Fin infinityMagnitude}
    (hden : 0 < den) (hin : InInterval m num den) :
    nearest negative num den = .finite negative m := by
  have hrounded := (nearestMagnitude_eq_iff hden).2 hin
  rw [nearest_eq, dif_pos (hrounded ▸ m.isLt)]
  simp only [hrounded]

end Binary64

end CampusQuery.Numeric
