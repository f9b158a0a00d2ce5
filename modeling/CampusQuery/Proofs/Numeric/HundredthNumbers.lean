import CampusQuery.Proofs.Numeric.Closest
import CampusQuery.Proofs.Numeric.DecimalValues

/-!
# The numbers of decimals in hundredths

The whole and the fractional part of a decimal are converted apart, so its number
is put together in five rounding steps. Below `2 ^ 45` they lose less than half a
hundredth, and the last division makes good for it: the result is the number
nearest to the decimal. Whole decimals have their nearest number at any size.
-/

namespace CampusQuery.Numeric

/-! ## Quotients in other terms -/

theorem roundDiv_mul_mul_right (tie : Tie) (num den : Nat) {c : Nat} (hc : 0 < c) :
    roundDiv tie (num * c) (den * c) = roundDiv tie num den := by
  have hdiv : num * c / (den * c) = num / den := Nat.mul_div_mul_right num den hc
  have hless : ∀ a b : Nat, a * c < b * c ↔ a < b := fun a b => Nat.mul_lt_mul_right hc
  unfold roundDiv
  dsimp only
  rw [hdiv, Nat.mul_mod_mul_right, ← Nat.mul_assoc]
  simp only [hless]

/-- A quotient less than half a unit away from an integer is rounded to it. -/
theorem roundDiv_eq_of_close (tie : Tie) {num den n : Nat} (hlow : 2 * (n * den) < 2 * num + den)
    (hhigh : 2 * num < 2 * (n * den) + den) : roundDiv tie num den = n := by
  have hden : 0 < den := by
    by_contra hzero
    obtain rfl : den = 0 := by omega
    omega
  have hover := roundDiv_mul_le tie num den
  have hunder := le_roundDiv_mul tie num hden
  by_contra hne
  rcases Nat.lt_or_gt_of_ne hne with hlt | hlt
  · have hstep : (roundDiv tie num den + 1) * den ≤ n * den := Nat.mul_le_mul_right den hlt
    rw [Nat.succ_mul] at hstep
    omega
  · have hstep : (n + 1) * den ≤ roundDiv tie num den * den := Nat.mul_le_mul_right den hlt
    rw [Nat.succ_mul] at hstep
    omega

namespace Binary64

theorem nearest_mul_mul_right (negative : Bool) (num den : Nat) {c : Nat} (hc : 0 < c) :
    nearest negative (num * c) (den * c) = nearest negative num den := by
  have hdiv : num * c / (den * c) = num / den := Nat.mul_div_mul_right num den hc
  have hround : ∀ s : Nat, roundDiv .toEven (num * c) (den * c * Nat.pow 2 s) =
      roundDiv .toEven num (den * Nat.pow 2 s) := by
    intro s
    rw [Nat.mul_right_comm]
    exact roundDiv_mul_mul_right .toEven num _ hc
  unfold nearest
  simp only [hdiv, hround]

/-- Equal quotients have one nearest number. -/
theorem nearest_eq_of_mul_eq (negative : Bool) {a b c d : Nat} (hb : 0 < b) (hd : 0 < d)
    (hcross : a * d = c * b) : nearest negative a b = nearest negative c d := by
  rw [← nearest_mul_mul_right negative a b hd, ← nearest_mul_mul_right negative c d hb, hcross,
    Nat.mul_comm b d]

theorem neg_nearest (negative : Bool) (num den : Nat) :
    -nearest negative num den = nearest (!negative) num den := by
  rw [nearest_eq, nearest_eq]
  split <;> rfl

/-- A finite nearest number has the magnitude that its quotient is rounded to. -/
theorem exists_of_isFinite_nearest {negative : Bool} {num den : Nat}
    (hfinite : (nearest negative num den).isFinite = true) :
    ∃ m : Fin infinityMagnitude, nearest negative num den = .finite negative m ∧
      m.val = nearestMagnitude num den := by
  rw [nearest_eq] at hfinite ⊢
  split
  next hlt => exact ⟨_, rfl, rfl⟩
  next hnot => rw [dif_neg hnot] at hfinite; exact nomatch hfinite

/-- Below `2 ^ (53 + e)` the nearest number is at most half of `2 ^ e` away. -/
theorem units_nearestMagnitude_close {num den e : Nat} (hden : 0 < den)
    (hlt : num < den * 2 ^ (53 + e)) :
    2 * (units (nearestMagnitude num den) * den) ≤ 2 * num + den * 2 ^ e ∧
      2 * num ≤ 2 * (units (nearestMagnitude num den) * den) + den * 2 ^ e := by
  have hpositive : 0 < den * 2 ^ shiftOf num den := Nat.mul_pos hden (Nat.two_pow_pos _)
  have hshift : den * 2 ^ shiftOf num den ≤ den * 2 ^ e :=
    Nat.mul_le_mul_left den (Nat.pow_le_pow_right (by decide) (shiftOf_le hlt))
  have hplace : roundDiv .toEven num (den * 2 ^ shiftOf num den) * 2 ^ shiftOf num den * den =
      roundDiv .toEven num (den * 2 ^ shiftOf num den) * (den * 2 ^ shiftOf num den) := by ring
  have hover := roundDiv_mul_le .toEven num (den * 2 ^ shiftOf num den)
  have hunder := le_roundDiv_mul .toEven num hpositive
  rw [units_nearestMagnitude num hden, hplace]
  omega

/-- A multiple of its last place is a number's value. -/
theorem units_nearestMagnitude_of_dvd {num : Nat} (hplace : 2 ^ shiftOf num 1 ∣ num) :
    units (nearestMagnitude num 1) = num := by
  have hround : ∀ s, 2 ^ s ∣ num → roundDiv .toEven num (1 * 2 ^ s) * 2 ^ s = num := by
    rintro s ⟨t, rfl⟩
    rw [Nat.one_mul, Nat.mul_comm (2 ^ s) t, roundDiv_mul .toEven t (Nat.two_pow_pos s)]
  rw [units_nearestMagnitude num Nat.one_pos]
  exact hround _ hplace

theorem shiftOf_mul_two_pow_le {n : Nat} (hn : n < 2 ^ 53) (e : Nat) :
    shiftOf (n * 2 ^ e) 1 ≤ e := by
  refine shiftOf_le ?_
  rw [Nat.one_mul, Nat.pow_add]
  exact Nat.mul_lt_mul_of_pos_right hn (Nat.two_pow_pos e)

/-- Integers of up to 53 bits are numbers. -/
theorem exists_ofNat {n : Nat} (hn : n < 2 ^ 53) :
    ∃ m : Fin infinityMagnitude, ofNat n = .finite false m ∧ units m = n * unitsPerOne := by
  have hfinite : (ofNat n).isFinite = true := (@within_ofNat n 53 hn.le (by decide)).isFinite
  obtain ⟨m, hm, hmagnitude⟩ :=
    @exists_of_isFinite_nearest false (n * unitsPerOne) 1 hfinite
  have hplace : 2 ^ shiftOf (n * unitsPerOne) 1 ∣ n * unitsPerOne := by
    rw [unitsPerOne_eq]
    exact (pow_dvd_pow 2 (shiftOf_mul_two_pow_le hn oneExponent)).mul_left n
  exact ⟨m, hm, hmagnitude ▸ units_nearestMagnitude_of_dvd hplace⟩

theorem finite_div_finite (a b : Bool) (m n : Fin infinityMagnitude) (hn : n.val ≠ 0) :
    finite a m / finite b n = nearest (a != b) (units m * unitsPerOne) (units n) := by
  change Binary64.div _ _ = _
  rw [Binary64.div, if_neg hn]

/-- The quotient of integers is rounded once. -/
theorem ofNat_div_ofNat {n k : Nat} (hn : n < 2 ^ 53) (hk : k < 2 ^ 53) (hpos : 0 < k) :
    ofNat n / ofNat k = nearest false (n * unitsPerOne) k := by
  obtain ⟨x, hx, hxunits⟩ := exists_ofNat hn
  obtain ⟨y, hy, hyunits⟩ := exists_ofNat hk
  have hypos : 0 < units y := hyunits ▸ Nat.mul_pos hpos unitsPerOne_pos
  have hyzero : y.val ≠ 0 := fun hzero => by
    rw [hzero] at hypos
    exact absurd hypos (by decide)
  rw [hx, hy, finite_div_finite _ _ _ _ hyzero, hxunits, hyunits]
  exact nearest_mul_mul_right false (n * unitsPerOne) k unitsPerOne_pos

/-- The sum of numbers without signs, not both zero, is rounded once. -/
theorem finite_add_finite {m n : Fin infinityMagnitude} (hpos : 0 < units m + units n) :
    finite false m + finite false n = nearest false (units m + units n) 1 := by
  have hsigned : signedUnits false m + signedUnits false n = ((units m + units n : Nat) : Int) := by
    unfold signedUnits
    push_cast
    rfl
  change (if signedUnits false m + signedUnits false n = 0 then _ else _) = _
  rw [hsigned, if_neg (by omega), decide_eq_false (by omega), Int.natAbs_natCast]

/-- Below `2 ^ 53` last places, rounding is off by half a place at most. -/
theorem exists_close (num : Nat) {den e place : Nat} (hplace : 2 ^ e = place) (he : 53 + e ≤ 2097)
    (hden : 0 < den) (hlt : num < den * (2 ^ 53 * place)) :
    ∃ m : Fin infinityMagnitude, nearest false num den = .finite false m ∧
      2 * (units m * den) ≤ 2 * num + den * place ∧
        2 * num ≤ 2 * (units m * den) + den * place := by
  rw [← hplace, ← Nat.pow_add] at hlt
  have hwithin := within_nearest false hden (by omega) he hlt.le
  obtain ⟨m, hm, hmagnitude⟩ := exists_of_isFinite_nearest hwithin.isFinite
  refine ⟨m, hm, ?_⟩
  rw [← hplace, hmagnitude]
  exact units_nearestMagnitude_close hden hlt

/-! ## Putting a decimal's number together -/

/-- The exponent of the last place just below one. -/
def placeExponent : Nat := 1021

/-- The last place just below one, in units. -/
def lastPlace : Nat := 2 ^ placeExponent

theorem unitsPerOne_eq_lastPlace : unitsPerOne = 2 ^ 53 * lastPlace := by
  have hsplit : oneExponent = 53 + placeExponent := rfl
  rw [unitsPerOne_eq, lastPlace, hsplit, Nat.pow_add]

/-- A fraction is rounded to the last place below one. -/
theorem exists_part {p rest : Nat} (hp : p < 2 ^ 53) (hrest : rest < p) :
    ∃ f : Fin infinityMagnitude, ofNat rest / ofNat p = .finite false f ∧
      2 * (units f * p) ≤ 2 * (rest * unitsPerOne) + p * lastPlace ∧
        2 * (rest * unitsPerOne) ≤ 2 * (units f * p) + p * lastPlace := by
  have hpos : 0 < p := Nat.zero_lt_of_lt hrest
  rw [ofNat_div_ofNat (hrest.trans hp) hp hpos]
  refine exists_close (rest * unitsPerOne) rfl (by decide) hpos ?_
  rw [← unitsPerOne_eq_lastPlace]
  exact Nat.mul_lt_mul_of_pos_right hrest unitsPerOne_pos

/-- Below `2 ^ 45` a sum is rounded to the last place there. -/
theorem exists_sum {w f : Fin infinityMagnitude} (hpos : 0 < units w + units f)
    (hlt : units w + units f < 2 ^ 45 * unitsPerOne) :
    ∃ v : Fin infinityMagnitude, finite false w + finite false f = .finite false v ∧
      2 * units v ≤ 2 * (units w + units f) + 2 ^ 45 * lastPlace ∧
        2 * (units w + units f) ≤ 2 * units v + 2 ^ 45 * lastPlace := by
  have hplace : 2 ^ (45 + placeExponent) = 2 ^ 45 * lastPlace := by
    rw [lastPlace, Nat.pow_add]
  rw [unitsPerOne_eq_lastPlace, Nat.mul_left_comm, ← Nat.one_mul (2 ^ 53 * _)] at hlt
  have hclose := exists_close (units w + units f) hplace (by decide) Nat.one_pos hlt
  simp only [Nat.mul_one, Nat.one_mul] at hclose
  rwa [finite_add_finite hpos]

/-- Below `2 ^ 52` a product by an integer is rounded to the last place there. -/
theorem exists_product {v q : Fin infinityMagnitude} {p : Nat} (hq : units q = p * unitsPerOne)
    (hlt : units v * p < 2 ^ 52 * unitsPerOne) :
    ∃ x : Fin infinityMagnitude, finite false v * finite false q = .finite false x ∧
      2 * units x ≤ 2 * (units v * p) + 2 ^ 52 * lastPlace ∧
        2 * (units v * p) ≤ 2 * units x + 2 ^ 52 * lastPlace := by
  have hplace : 2 ^ (52 + placeExponent) = 2 ^ 52 * lastPlace := by
    rw [lastPlace, Nat.pow_add]
  rw [unitsPerOne_eq_lastPlace, Nat.mul_left_comm, ← Nat.one_mul (2 ^ 53 * _)] at hlt
  have hclose := exists_close (units v * p) hplace (by decide) Nat.one_pos hlt
  simp only [Nat.mul_one, Nat.one_mul] at hclose
  have hproduct : finite false v * finite false q = nearest false (units v * p) 1 := by
    have hscale := nearest_mul_mul_right false (units v * p) 1 unitsPerOne_pos
    rw [Nat.one_mul] at hscale
    rw [finite_mul_finite, hq, ← Nat.mul_assoc]
    exact hscale
  rwa [hproduct]

/-- Below `2 ^ 45` the five roundings are off by less than half a hundredth. -/
theorem roundToInteger_recombined {p whole rest : Nat} (hp : p = 10 ∨ p = 100)
    (hwhole : whole < 2 ^ 45) (hrest : rest < p) (hpos : 0 < rest) :
    (ofNat rest / ofNat p).isZero = false ∧
      ((ofNat whole + ofNat rest / ofNat p) * ofNat p).roundToInteger =
        ofNat (p * whole + rest) := by
  have hone := unitsPerOne_eq_lastPlace
  have hplace : 0 < lastPlace := Nat.two_pow_pos placeExponent
  -- what the integers make, in units
  have hscaled : (p * whole + rest) * unitsPerOne =
      p * (whole * unitsPerOne) + rest * unitsPerOne := by
    ring
  have hwholeUnits : whole * unitsPerOne + unitsPerOne ≤ 2 ^ 45 * unitsPerOne := by
    rw [← Nat.succ_mul]
    exact Nat.mul_le_mul_right _ hwhole
  have hrestUnits : rest * unitsPerOne + unitsPerOne ≤ p * unitsPerOne := by
    rw [← Nat.succ_mul]
    exact Nat.mul_le_mul_right _ hrest
  have hrestPos : unitsPerOne ≤ rest * unitsPerOne := Nat.le_mul_of_pos_left _ hpos
  obtain ⟨w, hw, hwunits⟩ := exists_ofNat (hwhole.trans (by decide : 2 ^ 45 < 2 ^ 53))
  obtain ⟨q, hq, hqunits⟩ := exists_ofNat (by omega : p < 2 ^ 53)
  rw [← hwunits] at hwholeUnits hscaled
  -- each step is close to what it rounds, and each leaves the next one its room
  obtain ⟨f, hf, hfover, hfunder⟩ := exists_part (by omega) hrest
  obtain ⟨v, hv, hvover, hvunder⟩ := @exists_sum w f (by rcases hp with rfl | rfl <;> omega)
    (by rcases hp with rfl | rfl <;> omega)
  obtain ⟨x, hx, hxover, hxunder⟩ := @exists_product v q p hqunits
    (by rcases hp with rfl | rfl <;> omega)
  have hrounded : roundDiv .up (units x) unitsPerOne = p * whole + rest := by
    refine roundDiv_eq_of_close .up ?_ ?_
    · rcases hp with rfl | rfl <;> omega
    · rcases hp with rfl | rfl <;> omega
  rw [hf, hw, hv, hq, hx]
  refine ⟨decide_eq_false fun hzero => ?_, ?_⟩
  · have hnone : units f = 0 := congrArg units hzero
    rcases hp with rfl | rfl <;> omega
  · rw [roundToInteger, hrounded]
    rfl

/-- The number nearest to a rational number. -/
def ofRat (q : ℚ) : Binary64 := nearest (q < 0) (q.num.natAbs * unitsPerOne) q.den

end Binary64

namespace Decimal96

/-- The number nearest to a decimal's digits. -/
def nearestNumber (d : Decimal96) : Binary64 :=
  Binary64.nearest d.negative (d.coefficient * Binary64.unitsPerOne) (10 ^ d.scale)

theorem toBinary64_eq_of_magnitude {d : Decimal96} {magnitude : Binary64}
    (hmagnitude : magnitude =
      Binary64.nearest false (d.coefficient * Binary64.unitsPerOne) (10 ^ d.scale)) :
    (if d.negative then -magnitude else magnitude) = d.nearestNumber := by
  rw [nearestNumber, hmagnitude]
  split
  next hnegative => rw [Binary64.neg_nearest, hnegative, Bool.not_false]
  next hpositive => rw [Bool.eq_false_of_not_eq_true hpositive]

/-- Whole decimals of up to two places have their nearest number at any size. -/
theorem toBinary64_of_whole {d : Decimal96} (hscale : d.scale ≤ 2)
    (hwhole : 10 ^ d.scale ∣ d.coefficient) : d.toBinary64 = d.nearestNumber := by
  have hnoPart : d.scale = 0 ∨ (Binary64.ofNat (d.coefficient % Nat.pow 10 d.scale) /
      Binary64.ofNat (Nat.pow 10 d.scale)).isZero := by
    have hnoRest : d.coefficient % Nat.pow 10 d.scale = 0 := Nat.mod_eq_zero_of_dvd hwhole
    rw [hnoRest]
    obtain hzero | hone | htwo : d.scale = 0 ∨ d.scale = 1 ∨ d.scale = 2 := by omega
    · exact .inl hzero
    · exact .inr (hone ▸ by decide +kernel)
    · exact .inr (htwo ▸ by decide +kernel)
  have hpower : 0 < 10 ^ d.scale := Nat.pow_pos (by decide)
  unfold toBinary64
  dsimp only
  rw [if_pos hnoPart]
  refine toBinary64_eq_of_magnitude (Binary64.nearest_eq_of_mul_eq false Nat.one_pos hpower ?_)
  rw [Nat.mul_one, Nat.mul_right_comm]
  exact congrArg (· * Binary64.unitsPerOne) (Nat.div_mul_cancel hwhole)

/-- Decimals of up to two places have their nearest number below `2 ^ 45`. -/
theorem toBinary64_of_lt {d : Decimal96} (hscale : d.scale ≤ 2)
    (hlt : d.coefficient < 2 ^ 45 * 10 ^ d.scale) : d.toBinary64 = d.nearestNumber := by
  by_cases hwhole : 10 ^ d.scale ∣ d.coefficient
  · exact toBinary64_of_whole hscale hwhole
  have hsome : d.scale ≠ 0 := fun hzero => hwhole (hzero ▸ one_dvd _)
  have hp : 10 ^ d.scale = 10 ∨ 10 ^ d.scale = 100 := by
    obtain hone | htwo : d.scale = 1 ∨ d.scale = 2 := by omega
    · exact .inl (by rw [hone, Nat.pow_one])
    · exact .inr (by rw [htwo]; rfl)
  have hpower : 0 < 10 ^ d.scale := Nat.pow_pos (by decide)
  have hless : d.coefficient / 10 ^ d.scale < 2 ^ 45 := (Nat.div_lt_iff_lt_mul hpower).2 hlt
  have hrest : 0 < d.coefficient % 10 ^ d.scale := by
    rw [Nat.dvd_iff_mod_eq_zero] at hwhole
    exact Nat.pos_of_ne_zero hwhole
  obtain ⟨hpart, hrounded⟩ :=
    Binary64.roundToInteger_recombined hp hless (Nat.mod_lt _ hpower) hrest
  rw [Nat.div_add_mod] at hrounded
  have hboth : ¬ (d.scale = 0 ∨ false = true) := by simpa using hsome
  unfold toBinary64
  dsimp only
  rw [Nat.pow_eq, hpart, if_neg hboth, hrounded]
  refine toBinary64_eq_of_magnitude (Binary64.ofNat_div_ofNat ?_ ?_ hpower)
  · rcases hp with hp | hp <;> rw [hp] at hlt <;> omega
  · rcases hp with hp | hp <;> omega

/-- The number depends on nothing but the value. -/
theorem nearestNumber_eq_ofRat {d : Decimal96} (hzero : d.coefficient = 0 → d.negative = false) :
    d.nearestNumber = Binary64.ofRat d.value := by
  have hpower : 0 < 10 ^ d.scale := Nat.pow_pos (by decide)
  have hsign : decide (d.value < 0) = d.negative := by
    cases hd : d.negative with
    | false =>
        refine decide_eq_false (not_lt.2 ?_)
        rw [value, hd, signed_false]
        positivity
    | true =>
        have hsome : d.coefficient ≠ 0 := fun hnone =>
          Bool.noConfusion (hd.symm.trans (hzero hnone))
        refine decide_eq_true ?_
        rw [value, hd, signed_true, neg_lt_zero]
        positivity
  have hcross : d.coefficient * d.value.den = d.value.num.natAbs * 10 ^ d.scale := by
    have habs := d.abs_value
    rw [Rat.abs_def, Rat.divInt_eq_div, div_eq_div_iff (by positivity) (by positivity)] at habs
    exact_mod_cast habs.symm
  rw [nearestNumber, Binary64.ofRat, hsign]
  refine Binary64.nearest_eq_of_mul_eq _ hpower d.value.den_pos ?_
  rw [Nat.mul_right_comm, hcross, Nat.mul_right_comm]

/-- Up to two places, a decimal that is whole or below `2 ^ 45` has the number nearest to it. -/
theorem toBinary64_eq_ofRat {d : Decimal96} (hscale : d.scale ≤ 2)
    (hzero : d.coefficient = 0 → d.negative = false)
    (hvalue : (∃ n : ℤ, d.value = n) ∨ |d.value| < 2 ^ 45) :
    d.toBinary64 = Binary64.ofRat d.value := by
  rw [← nearestNumber_eq_ofRat hzero]
  have hsize := d.abs_value
  rcases hvalue with ⟨n, hn⟩ | hlt
  · refine toBinary64_of_whole hscale ⟨n.natAbs, ?_⟩
    rw [hn, eq_div_iff (by positivity), mul_comm, ← Int.cast_abs, ← Nat.cast_natAbs] at hsize
    exact_mod_cast hsize.symm
  · refine toBinary64_of_lt hscale ?_
    rw [hsize, div_lt_iff₀ (by positivity)] at hlt
    exact_mod_cast hlt

/-- A decimal of at most one place has whole tenths. -/
theorem exists_tenths {d : Decimal96} (hscale : d.scale ≤ 1) : ∃ n : ℤ, d.value * 10 = n := by
  refine ⟨d.signedCoefficient 1, ?_⟩
  rw [signedCoefficient_eq hscale, pow_one]

end Decimal96

end CampusQuery.Numeric
