import CampusQuery.Numeric.Arithmetic
import Mathlib.Tactic.Ring

/-!
# Rounding to the nearest number keeps bounds

A quotient that is at most, or at least, the value of a magnitude is rounded to
a magnitude that is at most, or at least, this one. So only quotients beyond the
greatest finite number can overflow.
-/

namespace CampusQuery.Numeric

/-! ## Rounding to integers -/

theorem roundDiv_le_of_le {tie : Tie} {num den n : Nat} (hden : 0 < den) (hle : num ≤ den * n) :
    roundDiv tie num den ≤ n := by
  have hsplit := Nat.div_add_mod num den
  rcases roundDiv_cases tie num den with ⟨hvalue, -⟩ | ⟨hvalue, hrest⟩ <;> rw [hvalue]
  · exact Nat.div_le_of_le_mul hle
  · -- a quotient of `n` leaves no rest, and without a rest nothing is rounded up
    by_contra hgt
    have hquotient : n ≤ num / den := by omega
    have hmul := Nat.mul_le_mul_left den hquotient
    omega

theorem le_roundDiv_of_le {tie : Tie} {num den n : Nat} (hden : 0 < den) (hle : den * n ≤ num) :
    n ≤ roundDiv tie num den := by
  have hquotient : n ≤ num / den := (Nat.le_div_iff_mul_le hden).2 (Nat.mul_comm den n ▸ hle)
  rcases roundDiv_cases tie num den with ⟨hvalue, -⟩ | ⟨hvalue, -⟩ <;> omega

/-- A quotient stays below an even number exactly if it stays below the middle before it. -/
theorem roundDiv_lt_iff {num den n : Nat} (hden : 0 < den) (heven : n % 2 = 0) :
    roundDiv .toEven num den < n ↔ 2 * num + den < 2 * n * den := by
  have hsplit := Nat.div_add_mod num den
  have hrest := Nat.mod_lt num hden
  have hdouble : 2 * n * den = den * n + den * n := by ring
  rw [hdouble]
  rcases Nat.lt_trichotomy (num / den + 1) n with hlow | hsame | hhigh
  · -- the quotient is more than one below, so both sides hold
    have hmul : den * (num / den + 2) ≤ den * n := Nat.mul_le_mul_left den hlow
    rw [Nat.mul_add] at hmul
    rcases @roundDiv_cases .toEven num den with ⟨hvalue, -⟩ | ⟨hvalue, -⟩ <;> omega
  · -- just below, the rest decides, and a tie goes up to the even number
    have hmul : den * n = den * (num / den) + den := by rw [← hsame, Nat.mul_add, Nat.mul_one]
    have hodd : num / den % 2 = 1 := by omega
    unfold roundDiv
    dsimp only
    rw [hodd]
    split
    · omega
    · split <;> omega
  · have hmul : den * n ≤ den * (num / den) := Nat.mul_le_mul_left den (Nat.le_of_lt_succ hhigh)
    rcases @roundDiv_cases .toEven num den with ⟨hvalue, -⟩ | ⟨hvalue, -⟩ <;> omega

namespace Binary64

/-! ## Magnitudes and their values -/

theorem fractionCount_eq : fractionCount = 2 ^ 52 := rfl

theorem exponentField_mul_add_fraction (m : Nat) :
    exponentField m * fractionCount + fraction m = m := by
  rw [Nat.mul_comm]
  exact Nat.div_add_mod m fractionCount

theorem fraction_lt (m : Nat) : fraction m < fractionCount := Nat.mod_lt m (by decide)

theorem units_of_subnormal {m : Nat} (hfield : exponentField m = 0) : units m = m := by
  have hsplit := exponentField_mul_add_fraction m
  rw [hfield] at hsplit
  rw [units, if_pos hfield]
  omega

theorem units_of_normal {m e : Nat} (hfield : exponentField m = e + 1) :
    units m = (fractionCount + fraction m) * 2 ^ e := by
  rw [units, if_neg (by omega), gap, hfield]
  rfl

/-- The shift of a quotient: how many bits its integer part has beyond the 53 that are kept. -/
def shiftOf (num den : Nat) : Nat := Nat.log2 (num / den) - 52

/-- The magnitude that a quotient is rounded to, finite or not. -/
def nearestMagnitude (num den : Nat) : Nat :=
  shiftOf num den * fractionCount + roundDiv .toEven num (den * 2 ^ shiftOf num den)

theorem nearest_eq (negative : Bool) (num den : Nat) :
    nearest negative num den =
      if h : nearestMagnitude num den < infinityMagnitude
      then .finite negative ⟨nearestMagnitude num den, h⟩ else .infinite negative :=
  rfl

theorem shiftOf_le {num den e : Nat} (hlt : num < den * 2 ^ (53 + e)) :
    shiftOf num den ≤ e := by
  have hquotient : num / den < 2 ^ (53 + e) := Nat.div_lt_of_lt_mul hlt
  have hlog : Nat.log2 (num / den) < 53 + e := by
    by_cases hzero : num / den = 0
    · rw [hzero]
      simp
    · exact (Nat.log2_lt hzero).2 hquotient
  unfold shiftOf
  omega

theorem le_shiftOf {num den e : Nat} (hden : 0 < den) (hle : den * 2 ^ (52 + e) ≤ num) :
    e ≤ shiftOf num den := by
  have hquotient : 2 ^ (52 + e) ≤ num / den :=
    (Nat.le_div_iff_mul_le hden).2 (Nat.mul_comm den _ ▸ hle)
  have hnonzero : num / den ≠ 0 := by
    have := Nat.two_pow_pos (52 + e)
    omega
  have hlog := (Nat.le_log2 hnonzero).2 hquotient
  unfold shiftOf
  omega

/-- A quotient has less than 54 bits left after its shift, -/
theorem num_lt_of_shiftOf (num : Nat) {den : Nat} (hden : 0 < den) :
    num < den * 2 ^ (53 + shiftOf num den) := by
  have hquotient : num / den < 2 ^ (Nat.log2 (num / den) + 1) := Nat.lt_log2_self
  have hpow : 2 ^ (Nat.log2 (num / den) + 1) ≤ 2 ^ (53 + shiftOf num den) :=
    Nat.pow_le_pow_right (by decide) (by unfold shiftOf; omega)
  exact Nat.mul_comm den _ ▸ (Nat.div_lt_iff_lt_mul hden).1 (hquotient.trans_le hpow)

/-- and 53 bits at least if it is shifted at all. -/
theorem le_num_of_shiftOf {num den : Nat} (hshift : 0 < shiftOf num den) :
    den * 2 ^ (52 + shiftOf num den) ≤ num := by
  have hlog : 52 + shiftOf num den = Nat.log2 (num / den) := by
    unfold shiftOf at hshift ⊢
    omega
  have hnonzero : num / den ≠ 0 := by
    intro hzero
    rw [shiftOf, hzero] at hshift
    simp at hshift
  rw [hlog]
  exact (Nat.mul_le_mul_left den (Nat.log2_self_le hnonzero)).trans (Nat.mul_div_le num den)

theorem roundDiv_shiftOf_le (num : Nat) {den : Nat} (hden : 0 < den) :
    roundDiv .toEven num (den * 2 ^ shiftOf num den) ≤ 2 * fractionCount := by
  refine roundDiv_le_of_le (Nat.mul_pos hden (Nat.two_pow_pos _))
    ((num_lt_of_shiftOf num hden).le.trans_eq ?_)
  rw [Nat.pow_add, fractionCount_eq]
  ring

theorem le_roundDiv_shiftOf {num den : Nat} (hden : 0 < den) (hshift : 0 < shiftOf num den) :
    fractionCount ≤ roundDiv .toEven num (den * 2 ^ shiftOf num den) := by
  refine le_roundDiv_of_le (Nat.mul_pos hden (Nat.two_pow_pos _))
    (Eq.trans_le ?_ (le_num_of_shiftOf hshift))
  rw [Nat.pow_add, fractionCount_eq]
  ring

/-- A quotient that is at most the value of a magnitude is not rounded above it. -/
theorem nearestMagnitude_le {num den m : Nat} (hden : 0 < den) (hle : num ≤ den * units m) :
    nearestMagnitude num den ≤ m := by
  have hm := exponentField_mul_add_fraction m
  have hfraction := fraction_lt m
  have hpositive : 0 < den * 2 ^ shiftOf num den := Nat.mul_pos hden (Nat.two_pow_pos _)
  rcases hfield : exponentField m with _ | e
  · rw [units_of_subnormal hfield] at hle
    rw [hfield, Nat.zero_mul, Nat.zero_add] at hm
    have hshift : shiftOf num den ≤ 0 := by
      refine shiftOf_le (hle.trans_lt (Nat.mul_lt_mul_of_pos_left ?_ hden))
      rw [fractionCount_eq] at hfraction
      omega
    rw [nearestMagnitude, Nat.le_zero.1 hshift, Nat.zero_mul, Nat.zero_add, Nat.pow_zero,
      Nat.mul_one]
    exact roundDiv_le_of_le hden hle
  · rw [units_of_normal hfield] at hle
    have hbits : fractionCount + fraction m < 2 ^ 53 := by
      rw [fractionCount_eq] at hfraction ⊢
      omega
    have hshift : shiftOf num den ≤ e := by
      refine shiftOf_le (hle.trans_lt (Nat.mul_lt_mul_of_pos_left ?_ hden))
      rw [Nat.pow_add]
      exact Nat.mul_lt_mul_of_pos_right hbits (Nat.two_pow_pos e)
    rw [hfield, Nat.add_mul, Nat.one_mul] at hm
    unfold nearestMagnitude
    rcases hshift.lt_or_eq with hlower | hsame
    · -- one binade lower even a full significand stays below
      have hround := roundDiv_shiftOf_le num hden
      have hmul : (shiftOf num den + 1) * fractionCount ≤ e * fractionCount :=
        Nat.mul_le_mul_right _ hlower
      rw [Nat.add_mul, Nat.one_mul] at hmul
      omega
    · have hround : roundDiv .toEven num (den * 2 ^ shiftOf num den) ≤
          fractionCount + fraction m := by
        refine roundDiv_le_of_le hpositive (hle.trans_eq ?_)
        rw [hsame]
        ring
      rw [hsame] at hround ⊢
      omega

/-- A quotient that is at least the value of a magnitude is not rounded below it. -/
theorem le_nearestMagnitude {num den m : Nat} (hden : 0 < den) (hle : den * units m ≤ num) :
    m ≤ nearestMagnitude num den := by
  have hm := exponentField_mul_add_fraction m
  have hfraction := fraction_lt m
  have hpositive : 0 < den * 2 ^ shiftOf num den := Nat.mul_pos hden (Nat.two_pow_pos _)
  unfold nearestMagnitude
  rcases hfield : exponentField m with _ | e
  · -- shifted at all, the quotient is rounded to a normal magnitude
    rw [units_of_subnormal hfield] at hle
    rw [hfield, Nat.zero_mul, Nat.zero_add] at hm
    rcases Nat.eq_zero_or_pos (shiftOf num den) with hzero | hshift
    · rw [hzero, Nat.zero_mul, Nat.zero_add, Nat.pow_zero, Nat.mul_one]
      exact le_roundDiv_of_le hden hle
    · have hround := le_roundDiv_shiftOf hden hshift
      omega
  · rw [units_of_normal hfield] at hle
    rw [hfield, Nat.add_mul, Nat.one_mul] at hm
    have hshift : e ≤ shiftOf num den := by
      refine le_shiftOf hden (Nat.le_trans (Nat.mul_le_mul_left den ?_) hle)
      rw [Nat.pow_add, ← fractionCount_eq]
      exact Nat.mul_le_mul_right _ (Nat.le_add_right _ _)
    rcases hshift.lt_or_eq with hhigher | hsame
    · have hround := le_roundDiv_shiftOf hden (Nat.zero_lt_of_lt hhigher)
      have hmul : (e + 1) * fractionCount ≤ shiftOf num den * fractionCount :=
        Nat.mul_le_mul_right _ hhigher
      rw [Nat.add_mul, Nat.one_mul] at hmul
      omega
    · have hround : fractionCount + fraction m ≤
          roundDiv .toEven num (den * 2 ^ shiftOf num den) := by
        refine le_roundDiv_of_le hpositive (Eq.trans_le ?_ hle)
        rw [← hsame]
        ring
      rw [← hsame] at hround ⊢
      omega

/-! ## Overflow -/

/-- A number is rounded up to the next binade exactly from the middle before it on. -/
theorem nearestMagnitude_lt_binade_iff (num e : Nat) :
    nearestMagnitude num 1 < (e + 3) * fractionCount ↔ num < (4 * fractionCount - 1) * 2 ^ e := by
  have hmiddle : (4 * fractionCount - 1) * 2 ^ e + 2 ^ e = 4 * fractionCount * 2 ^ e := by
    rw [← Nat.succ_mul]
    rfl
  have hless : 2 ^ e ≤ fractionCount * 2 ^ e := Nat.le_mul_of_pos_left _ (by decide)
  have hupper := roundDiv_shiftOf_le num Nat.one_pos
  unfold nearestMagnitude
  rw [Nat.mul_assoc] at hmiddle
  rcases Nat.lt_trichotomy (shiftOf num 1) (e + 1) with hlow | hsame | hhigh
  · -- an earlier binade ends at most where this one starts
    have hmul : (shiftOf num 1 + 1) * fractionCount ≤ (e + 1) * fractionCount :=
      Nat.mul_le_mul_right _ hlow
    have hnum : num < 2 * (fractionCount * 2 ^ e) := by
      calc num < 1 * 2 ^ (53 + shiftOf num 1) := num_lt_of_shiftOf num Nat.one_pos
        _ ≤ 1 * 2 ^ (53 + e) := Nat.mul_le_mul_left 1 (Nat.pow_le_pow_right (by decide) (by omega))
        _ = 2 * (fractionCount * 2 ^ e) := by
          rw [Nat.pow_add, fractionCount_eq]
          ring
    have hleft : shiftOf num 1 * fractionCount +
        roundDiv .toEven num (1 * 2 ^ shiftOf num 1) < (e + 3) * fractionCount := by
      have hcount : 0 < fractionCount := by decide
      rw [Nat.add_mul] at hmul ⊢
      rw [Nat.add_mul e 1] at hmul
      omega
    exact iff_of_true hleft (by omega)
  · -- in this binade the significand decides
    have hround := @roundDiv_lt_iff num (1 * 2 ^ (e + 1)) (2 * fractionCount)
      (Nat.mul_pos Nat.one_pos (Nat.two_pow_pos _)) (Nat.mul_mod_right 2 _)
    have hdouble : 1 * 2 ^ (e + 1) = 2 * 2 ^ e := by rw [Nat.one_mul, Nat.pow_succ']
    have hproduct : 2 * (2 * fractionCount) * (2 * 2 ^ e) = 8 * (fractionCount * 2 ^ e) := by ring
    rw [hdouble, hproduct] at hround
    rw [hsame, hdouble, Nat.add_mul e 3, Nat.add_mul e 1]
    constructor
    · intro hleft
      have hsignificand := hround.1 (by omega)
      omega
    · intro hnum
      have hsignificand := hround.2 (by omega)
      omega
  · have hmul : (e + 2) * fractionCount ≤ shiftOf num 1 * fractionCount :=
      Nat.mul_le_mul_right _ hhigh
    have hfull := le_roundDiv_shiftOf Nat.one_pos (Nat.zero_lt_of_lt hhigh)
    have hnum : 4 * (fractionCount * 2 ^ e) ≤ num := by
      calc 4 * (fractionCount * 2 ^ e) = 1 * 2 ^ (52 + (e + 2)) := by
            rw [Nat.pow_add, Nat.pow_add, fractionCount_eq]
            ring
        _ ≤ 1 * 2 ^ (52 + shiftOf num 1) :=
          Nat.mul_le_mul_left 1 (Nat.pow_le_pow_right (by decide) (by omega))
        _ ≤ num := le_num_of_shiftOf (Nat.zero_lt_of_lt hhigh)
    have hnonzero := Nat.two_pow_pos e
    rw [Nat.add_mul] at hmul ⊢
    exact iff_of_false (by omega) (by omega)

/-- From this many units on, halfway between the greatest finite number and the next power of
two, a sum is rounded to an infinity. -/
def overflowUnits : Nat := (4 * fractionCount - 1) * 2 ^ 2044

theorem overflowUnits_pos : 0 < overflowUnits := Nat.mul_pos (by decide) (Nat.two_pow_pos _)

theorem nearestMagnitude_lt_iff (num : Nat) :
    nearestMagnitude num 1 < infinityMagnitude ↔ num < overflowUnits :=
  nearestMagnitude_lt_binade_iff num 2044

end Binary64

end CampusQuery.Numeric
