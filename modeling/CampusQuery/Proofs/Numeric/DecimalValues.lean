import CampusQuery.Numeric.Decimal96
import CampusQuery.Proofs.Numeric.PlainValues
import Mathlib.Data.Rat.Floor
import Mathlib.Tactic.FieldSimp
import Mathlib.Tactic.Linarith

/-!
# The values of decimals

Decimals are exact as long as they fit: what is read from a number has the value
of its plain text, and a sum has the sum of the values. Rounding to hundredths
is rounding of the value, halves going away from zero.
-/

namespace CampusQuery.Numeric

/-- The nearest integer, a half going away from zero. -/
def roundAway (q : ℚ) : ℤ := if q < 0 then -⌊-q + 1 / 2⌋ else ⌊q + 1 / 2⌋

/-- The nearest number of two places, a half of the last place going away from zero. -/
def roundHundredths (q : ℚ) : ℚ := roundAway (q * 100) / 100

theorem roundAway_of_nonneg {q : ℚ} (hq : 0 ≤ q) : roundAway q = ⌊q + 1 / 2⌋ :=
  if_neg (not_lt.2 hq)

theorem roundAway_neg {q : ℚ} (hq : 0 ≤ q) : roundAway (-q) = -roundAway q := by
  rw [roundAway_of_nonneg hq]
  rcases hq.eq_or_lt with rfl | hpos
  · norm_num [roundAway]
  · rw [roundAway, if_pos (neg_lt_zero.2 hpos), neg_neg]

theorem roundHundredths_signed (negative : Bool) {q : ℚ} (hq : 0 ≤ q) :
    roundHundredths (signed negative q) = signed negative (roundHundredths q) := by
  unfold roundHundredths
  cases negative with
  | false => rfl
  | true =>
      have hscaled : 0 ≤ q * 100 := mul_nonneg hq (by norm_num)
      rw [signed_true, signed_true, neg_mul, roundAway_neg hscaled]
      push_cast
      ring

theorem roundHundredths_of_whole {q : ℚ} {n : Nat} (hwhole : q * 100 = n) :
    roundHundredths q = q := by
  have hfloor : ⌊(n : ℚ) + 1 / 2⌋ = (n : ℤ) := by
    rw [Int.floor_eq_iff]
    constructor
    · push_cast
      linarith
    · push_cast
      linarith
  rw [roundHundredths, hwhole, roundAway_of_nonneg (Nat.cast_nonneg n), hfloor]
  push_cast
  rw [← hwhole]
  ring

/-- With ties going up, less than half a unit is lost from the quotient. -/
theorem lt_roundDiv_up (num : Nat) {den : Nat} (hden : 0 < den) :
    2 * num < 2 * (roundDiv .up num den * den) + den := by
  have hsplit := Nat.div_add_mod num den
  have hrest := Nat.mod_lt num hden
  have hnext : (num / den + 1) * den = den * (num / den) + den := by ring
  unfold roundDiv
  dsimp only
  split
  · rw [Nat.mul_comm (num / den)]
    omega
  · split <;> · rw [hnext]; omega

theorem roundDiv_up_eq_floor (num : Nat) {den : Nat} (hden : 0 < den) :
    (roundDiv .up num den : ℤ) = ⌊(num : ℚ) / den + 1 / 2⌋ := by
  have hpos : (0 : ℚ) < den := by exact_mod_cast hden
  have hover : (2 * (roundDiv .up num den * den) : ℚ) ≤ 2 * num + den := by
    exact_mod_cast roundDiv_mul_le .up num den
  have hunder : (2 * num : ℚ) < 2 * (roundDiv .up num den * den) + den := by
    exact_mod_cast lt_roundDiv_up num hden
  symm
  rw [Int.floor_eq_iff]
  push_cast
  constructor
  · rw [div_add_div _ _ hpos.ne' two_ne_zero, le_div_iff₀ (by linarith)]
    linarith
  · rw [div_add_div _ _ hpos.ne' two_ne_zero, div_lt_iff₀ (by linarith)]
    linarith

namespace Decimal96

/-- The value `± coefficient / 10 ^ scale`. -/
def value (d : Decimal96) : ℚ := signed d.negative (d.coefficient / 10 ^ d.scale)

theorem abs_value (d : Decimal96) : |d.value| = d.coefficient / 10 ^ d.scale := by
  rw [value, abs_signed]
  exact abs_of_nonneg (by positivity)

@[simp] theorem value_zero : (0 : Decimal96).value = 0 := by
  change signed false (((0 : Nat) : ℚ) / 10 ^ 0) = 0
  norm_num

theorem value_eq_zero_iff {d : Decimal96} : d.value = 0 ↔ d.coefficient = 0 := by
  rw [← abs_eq_zero, abs_value, div_eq_zero_iff, Nat.cast_eq_zero]
  exact or_iff_left (by positivity)

/-- Decimals of one scale that are not zero are told apart by their values. -/
theorem eq_of_value_eq {a b : Decimal96} (hscale : a.scale = b.scale) (hvalue : a.value = b.value)
    (hsign : a.coefficient = 0 → b.coefficient = 0 → a.negative = b.negative) : a = b := by
  obtain ⟨s, m, p, hm, hp⟩ := a
  obtain ⟨t, n, q, hn, hq⟩ := b
  obtain rfl : p = q := hscale
  have habs := congrArg abs hvalue
  simp only [abs_value] at habs
  have hpower : (10 : ℚ) ^ p ≠ 0 := by positivity
  obtain rfl : m = n := by exact_mod_cast (div_left_inj' hpower).1 habs
  by_cases hzero : m = 0
  · obtain rfl : s = t := hsign hzero hzero
    rfl
  · have hpos : (0 : ℚ) < m / 10 ^ p := by positivity
    obtain rfl : s = t := by
      -- opposite signs would make opposite values
      simp only [value] at hvalue
      cases s <;> cases t
      · rfl
      · rw [signed_true, signed_false] at hvalue
        linarith
      · rw [signed_true, signed_false] at hvalue
        linarith
      · rfl
    rfl

/-! ## Fitting -/

theorem roundDiv_one (tie : Tie) (n : Nat) : roundDiv tie n 1 = n := by
  have h := roundDiv_mul tie n Nat.one_pos
  rwa [Nat.mul_one] at h

/-- What fits is kept as it is. -/
theorem fit?_of_lt (negative : Bool) {n scale : Nat} (hlt : n < coefficientBound)
    (hscale : scale ≤ 28) : fit? negative n scale = some ⟨negative, n, scale, hlt, hscale⟩ := by
  have hround : roundDiv .toEven n (Nat.pow 10 0) = n := roundDiv_one .toEven n
  unfold fit?
  rw [List.range_succ_eq_map, List.findSome?_cons]
  simp only [hround, Nat.sub_zero, dif_pos (And.intro hlt hscale)]

/-- The bound of coefficients, for values. -/
theorem coefficient_lt_of_value {q : ℚ} {n scale places : Nat} (hn : (n : ℚ) = q * 10 ^ scale)
    (hnonneg : 0 ≤ q) (hplaces : scale ≤ places) (hlt : q * 10 ^ places < 2 ^ 96) :
    n < coefficientBound := by
  have hpower : (10 : ℚ) ^ scale ≤ 10 ^ places := pow_le_pow_right₀ (by norm_num) hplaces
  have hbound : (n : ℚ) < 2 ^ 96 :=
    hn ▸ (mul_le_mul_of_nonneg_left hpower hnonneg).trans_lt hlt
  exact_mod_cast hbound

/-! ## Reading numbers -/

theorem exists_ofShort? (negative : Bool) {d : ShortDecimal} {places : Nat} (hplaces : places ≤ 28)
    (hneeds : d.places ≤ places) (hlt : d.value * 10 ^ places < 2 ^ 96) :
    ∃ decimal, ofShort? negative d = some decimal ∧ decimal.value = signed negative d.value ∧
      decimal.scale = d.places := by
  unfold ofShort?
  split
  next hwhole =>
    have hvalue := ShortDecimal.value_of_whole hwhole
    have hnone : d.places = 0 := by
      unfold ShortDecimal.places
      omega
    have hfits : d.digits * Nat.pow 10 d.exponent.toNat < coefficientBound := by
      refine @coefficient_lt_of_value d.value _ 0 _ ?_ ?_ (Nat.zero_le _) hlt
      · rw [hvalue, pow_zero, mul_one]
        rfl
      · rw [hvalue]
        positivity
    refine ⟨_, fit?_of_lt negative hfits (Nat.zero_le _), ?_, hnone.symm⟩
    rw [value, hvalue, pow_zero, div_one]
    rfl
  next hfraction =>
    have hvalue := ShortDecimal.value_of_fraction hfraction
    have hfew : (-d.exponent).toNat ≤ 28 := hneeds.trans hplaces
    have hfits : d.digits < coefficientBound := by
      refine coefficient_lt_of_value ?_ ?_ hneeds hlt
      · rw [hvalue, div_mul_cancel₀ _ (by positivity)]
      · rw [hvalue]
        positivity
    dsimp only
    rw [if_pos hfew]
    exact ⟨_, fit?_of_lt negative hfits hfew, by rw [value, hvalue]; rfl, rfl⟩

/-- A number whose plain text has few enough digits is read exactly. -/
theorem exists_ofBinary64? {x : Binary64} (hfinite : x.isFinite = true) {places : Nat}
    (hplaces : places ≤ 28) (hneeds : fractionDigits x.plain ≤ places)
    (hlt : |x.decimal| * 10 ^ places < 2 ^ 96) :
    ∃ decimal, ofBinary64? x = some decimal ∧ decimal.value = x.decimal ∧
      decimal.scale = fractionDigits x.plain := by
  cases x with
  | infinite negative => exact nomatch hfinite
  | nan => exact nomatch hfinite
  | finite negative m =>
      rw [Binary64.fractionDigits_plain] at hneeds ⊢
      rw [Binary64.decimal_finite] at hlt ⊢
      unfold ofBinary64?
      by_cases hzero : m.val = 0
      · have hshort : Binary64.shortOf m = ⟨0, 0⟩ := if_pos hzero
        refine ⟨0, if_pos hzero, ?_, ?_⟩
        · rw [value_zero, hshort, ShortDecimal.value, Nat.cast_zero, zero_mul, signed_zero]
        · rw [hshort]
          rfl
      · have hshort : Binary64.shortOf m = ShortDecimal.ofMagnitude .up m := if_neg hzero
        rw [hshort] at hneeds hlt ⊢
        rw [abs_signed] at hlt
        simp only [if_neg hzero]
        refine exists_ofShort? negative hplaces hneeds (lt_of_le_of_lt ?_ hlt)
        exact mul_le_mul_of_nonneg_right (le_abs_self _) (by positivity)

/-! ## Sums -/

theorem signedCoefficient_eq {d : Decimal96} {places : Nat} (hplaces : d.scale ≤ places) :
    (d.signedCoefficient places : ℚ) = d.value * 10 ^ places := by
  have hpower : (10 : ℚ) ^ places = 10 ^ (places - d.scale) * 10 ^ d.scale := by
    rw [← pow_add, Nat.sub_add_cancel hplaces]
  unfold signedCoefficient
  dsimp only
  rw [value, signed_mul, hpower, Nat.pow_eq]
  have hcancel : (d.coefficient : ℚ) / 10 ^ d.scale * (10 ^ (places - d.scale) * 10 ^ d.scale) =
      d.coefficient * 10 ^ (places - d.scale) := by
    field_simp
  rw [hcancel]
  split
  next hnegative =>
    rw [hnegative, signed_true]
    push_cast
    rfl
  next hpositive =>
    rw [Bool.not_eq_true] at hpositive
    rw [hpositive, signed_false]
    push_cast
    rfl

/-- A sum that fits has the sum of the values. A zero gives its scale up to the other addend. -/
theorem exists_add? {a b : Decimal96} {places : Nat} (hplaces : places ≤ 28)
    (ha : a.scale ≤ places) (hb : b.scale ≤ places)
    (hlt : |a.value + b.value| * 10 ^ places < 2 ^ 96) :
    ∃ sum, a.add? b = some sum ∧ sum.value = a.value + b.value ∧
      sum.scale = if a.coefficient = 0 then b.scale else if b.coefficient = 0 then a.scale
        else Nat.max a.scale b.scale := by
  unfold add?
  by_cases hazero : a.coefficient = 0
  · rw [if_pos hazero, if_pos hazero]
    exact ⟨b, rfl, by rw [value_eq_zero_iff.2 hazero, zero_add], rfl⟩
  by_cases hbzero : b.coefficient = 0
  · rw [if_neg hazero, if_neg hazero, if_pos hbzero, if_pos hbzero]
    exact ⟨a, rfl, by rw [value_eq_zero_iff.2 hbzero, add_zero], rfl⟩
  have hmax : Nat.max a.scale b.scale ≤ places := Nat.max_le.2 ⟨ha, hb⟩
  have hsum : ((a.signedCoefficient (Nat.max a.scale b.scale) +
      b.signedCoefficient (Nat.max a.scale b.scale) : Int) : ℚ) =
        (a.value + b.value) * 10 ^ Nat.max a.scale b.scale := by
    push_cast
    rw [signedCoefficient_eq (Nat.le_max_left _ _), signedCoefficient_eq (Nat.le_max_right _ _),
      add_mul]
  rw [if_neg hazero, if_neg hazero, if_neg hbzero, if_neg hbzero]
  dsimp only
  generalize a.signedCoefficient (Nat.max a.scale b.scale) +
    b.signedCoefficient (Nat.max a.scale b.scale) = sum at hsum ⊢
  have hsize : (sum.natAbs : ℚ) = |a.value + b.value| * 10 ^ Nat.max a.scale b.scale := by
    have hpower : (0 : ℚ) < 10 ^ Nat.max a.scale b.scale := by positivity
    rw [Nat.cast_natAbs, Int.cast_abs, hsum, abs_mul, abs_of_pos hpower]
  have hfits : sum.natAbs < coefficientBound :=
    coefficient_lt_of_value hsize (abs_nonneg _) hmax hlt
  refine ⟨_, fit?_of_lt _ hfits (hmax.trans hplaces), ?_, rfl⟩
  have hsigned : signed (decide (sum < 0)) (sum.natAbs : ℚ) = sum := by
    rcases lt_or_ge sum 0 with hneg | hnonneg
    · rw [decide_eq_true hneg, signed_true, Nat.cast_natAbs, abs_of_neg hneg]
      push_cast
      ring
    · rw [decide_eq_false (not_lt.2 hnonneg), signed_false, Nat.cast_natAbs, abs_of_nonneg hnonneg]
  change signed (decide (sum < 0)) ((sum.natAbs : ℚ) / 10 ^ Nat.max a.scale b.scale) = _
  rw [← signed_div, hsigned, hsum, mul_div_cancel_right₀ _ (by positivity)]

/-! ## Hundredths -/

/-- Rounding to two places rounds the value. -/
theorem value_roundToHundredths (d : Decimal96) :
    d.roundToHundredths.value = roundHundredths d.value := by
  have hnonneg : (0 : ℚ) ≤ d.coefficient / 10 ^ d.scale := by positivity
  have hsigned : roundHundredths d.value =
      signed d.negative (roundHundredths (d.coefficient / 10 ^ d.scale)) :=
    roundHundredths_signed _ hnonneg
  unfold roundToHundredths
  split
  next hzero =>
    rw [value_eq_zero_iff.2 hzero, value]
    norm_num [roundHundredths, roundAway]
  next hsome =>
    rw [hsigned]
    split
    next hfew =>
      -- up to two places there is nothing to round
      have hpower : (100 : ℚ) = 10 ^ (2 - d.scale) * 10 ^ d.scale := by
        rw [← pow_add, Nat.sub_add_cancel hfew]
        norm_num
      have hwhole : (d.coefficient : ℚ) / 10 ^ d.scale * 100 =
          (d.coefficient * 10 ^ (2 - d.scale) : Nat) := by
        rw [hpower]
        push_cast
        field_simp
      rw [roundHundredths_of_whole hwhole]
      rfl
    next hmany =>
      have hpositive : 0 < 10 ^ (d.scale - 2) := Nat.pow_pos (by decide)
      have hpower : (10 : ℚ) ^ d.scale = 10 ^ (d.scale - 2) * 100 := by
        have h100 : (100 : ℚ) = 10 ^ 2 := by norm_num
        rw [h100, ← pow_add, Nat.sub_add_cancel (by omega)]
      have hscaled : (d.coefficient : ℚ) / 10 ^ d.scale * 100 =
          d.coefficient / (10 ^ (d.scale - 2) : Nat) := by
        rw [hpower]
        push_cast
        field_simp
      have hrounded : roundHundredths ((d.coefficient : ℚ) / 10 ^ d.scale) =
          (roundDiv .up d.coefficient (10 ^ (d.scale - 2)) : Nat) / 10 ^ 2 := by
        rw [roundHundredths, roundAway_of_nonneg (mul_nonneg hnonneg (by norm_num)), hscaled,
          ← roundDiv_up_eq_floor _ hpositive]
        norm_num
      rw [hrounded]
      change signed (d.negative && roundDiv .up d.coefficient (10 ^ (d.scale - 2)) != 0)
        ((roundDiv .up d.coefficient (10 ^ (d.scale - 2)) : Nat) / 10 ^ 2) = _
      generalize roundDiv .up d.coefficient (10 ^ (d.scale - 2)) = rounded
      -- a zero loses its sign, which changes no value
      by_cases hnone : rounded = 0
      · simp [hnone]
      · rw [bne_iff_ne.2 hnone, Bool.and_true]

theorem scale_roundToHundredths_le (d : Decimal96) : d.roundToHundredths.scale ≤ 2 := by
  unfold roundToHundredths
  split
  · exact Nat.le_refl _
  · split
    · assumption
    · exact Nat.le_refl _

/-- A rounded zero has no sign. -/
theorem negative_roundToHundredths {d : Decimal96} (hzero : d.roundToHundredths.coefficient = 0) :
    d.roundToHundredths.negative = false := by
  unfold roundToHundredths at hzero ⊢
  split
  · rfl
  next hsome =>
    rw [if_neg hsome] at hzero
    split
    next hfew =>
      rw [if_pos hfew] at hzero
      exact absurd hzero hsome
    next hmany =>
      rw [if_neg hmany] at hzero
      change (d.negative && _) = false
      simpa using fun _ => hzero

end Decimal96

end CampusQuery.Numeric
