import CampusQuery.Proofs.Numeric.Intervals
import CampusQuery.Proofs.Numeric.PlainValues

/-!
# Shortest decimals round to their numbers

The finest grid that is tried is fine enough for every magnitude, so a shortest
decimal is always found, and it lies in the interval of its magnitude. Numbers in
scientific notation are rounded once, whatever their size, so the decimal is read
as the number that it was made for.
-/

namespace CampusQuery.Numeric

namespace ShortDecimal

open Binary64 (units gap unitsPerOne InInterval)

/-- The numerator of a decimal's value in units of `2 ^ -1074`. -/
def numerator (d : ShortDecimal) : Nat := d.digits * 10 ^ d.exponent.toNat * unitsPerOne

/-- The denominator of a decimal's value in units of `2 ^ -1074`. -/
def denominator (d : ShortDecimal) : Nat := 10 ^ d.places

theorem denominator_pos (d : ShortDecimal) : 0 < d.denominator := Nat.pow_pos (by decide)

theorem numerator_of_digits_eq_zero {d : ShortDecimal} (hnone : d.digits = 0) :
    d.numerator = 0 := by
  rw [numerator, hnone, Nat.zero_mul, Nat.zero_mul]

theorem numerator_of_fraction {d : ShortDecimal} (hfraction : ¬ 0 ≤ d.exponent) :
    d.numerator = d.digits * unitsPerOne := by
  have hzero : d.exponent.toNat = 0 := by omega
  rw [numerator, hzero, Nat.pow_zero, Nat.mul_one]

theorem denominator_of_whole {d : ShortDecimal} (hwhole : 0 ≤ d.exponent) : d.denominator = 1 := by
  have hzero : d.places = 0 := by
    unfold places
    omega
  rw [denominator, hzero, Nat.pow_zero]

theorem scale_eq (quarters : Nat) (exponent : Int) :
    scale quarters exponent =
      ⟨quarters * 10 ^ (-exponent).toNat, 10 ^ exponent.toNat * quartersPerOne⟩ := by
  unfold scale
  split
  next hwhole =>
    have hzero : (-exponent).toNat = 0 := by omega
    rw [hzero, Nat.pow_zero, Nat.mul_one]
    rfl
  next hfraction =>
    have hzero : exponent.toNat = 0 := by omega
    rw [hzero, Nat.pow_zero, Nat.one_mul]
    rfl

variable {magnitude count : Nat} {exponent : Int}

theorem inInterval_of_readsBack (hreads : readsBack magnitude exponent count = true) :
    InInterval magnitude (⟨count, exponent⟩ : ShortDecimal).numerator
      (⟨count, exponent⟩ : ShortDecimal).denominator := by
  have hquarters : count * (10 ^ exponent.toNat * quartersPerOne) =
      4 * (count * 10 ^ exponent.toNat * unitsPerOne) := by
    unfold quartersPerOne
    ring
  unfold readsBack at hreads
  simp only [scale_eq, hquarters] at hreads
  unfold InInterval numerator denominator places
  split at hreads
  next heven =>
    rw [if_pos heven]
    exact of_decide_eq_true hreads
  next hodd =>
    rw [if_neg hodd]
    exact of_decide_eq_true hreads

/-! ## The finest grid -/

/-- A grid point inside the interval of a magnitude reads back as it. -/
theorem readsBack_of_lt
    (hlow : lowerEnd magnitude * 10 ^ (-exponent).toNat <
      count * (10 ^ exponent.toNat * quartersPerOne))
    (hhigh : count * (10 ^ exponent.toNat * quartersPerOne) <
      upperEnd magnitude * 10 ^ (-exponent).toNat) :
    readsBack magnitude exponent count = true := by
  unfold readsBack
  simp only [scale_eq]
  split
  · exact decide_eq_true ⟨hlow.le, hhigh.le⟩
  · exact decide_eq_true ⟨hlow, hhigh⟩

/-- One of the two neighbours of a value on a grid lies between bounds that are far enough away. -/
theorem neighbour_between {low value high reach step : Nat} (hreach : 0 < reach)
    (hlow : low + reach ≤ value) (hhigh : high = value + 2 * reach) (hpos : 0 < step)
    (hstep : step ≤ 2 * reach) :
    (low < value / step * step ∧ value / step * step < high) ∨
      low < (value / step + 1) * step ∧ (value / step + 1) * step < high := by
  have hquotient := Nat.div_add_mod' value step
  have hrest := Nat.mod_lt value hpos
  rw [Nat.add_mul, Nat.one_mul]
  by_cases hnear : low < value / step * step
  · exact .inl ⟨hnear, by omega⟩
  · exact .inr ⟨by omega, by omega⟩

theorem lowerEnd_add_gap_le (hpos : 0 < units magnitude) :
    lowerEnd magnitude + gap magnitude ≤ 4 * units magnitude := by
  have hgap := Binary64.gap_le_units magnitude
  unfold lowerEnd
  dsimp only
  split <;> omega

/-- A grid has a point in the interval if its points are no farther from each other than half a
gap. -/
theorem isSome_onGrid? (tie : Tie) (hpos : 0 < units magnitude)
    (hfine : 10 ^ exponent.toNat * quartersPerOne ≤
      2 * gap magnitude * 10 ^ (-exponent).toNat) :
    (onGrid? tie magnitude exponent).isSome = true := by
  have hscale : 0 < 10 ^ (-exponent).toNat := Nat.pow_pos (by decide)
  have hgap : 0 < gap magnitude := Nat.two_pow_pos _
  have hstep : 0 < 10 ^ exponent.toNat * quartersPerOne :=
    Nat.mul_pos (Nat.pow_pos (by decide)) (Nat.mul_pos (by decide) Binary64.unitsPerOne_pos)
  have hlow := Nat.mul_le_mul_right (10 ^ (-exponent).toNat) (lowerEnd_add_gap_le hpos)
  have hhigh : upperEnd magnitude * 10 ^ (-exponent).toNat =
      4 * units magnitude * 10 ^ (-exponent).toNat +
        2 * (gap magnitude * 10 ^ (-exponent).toNat) := by
    unfold upperEnd
    ring
  rw [Nat.add_mul] at hlow
  rw [Nat.mul_assoc 2] at hfine
  unfold onGrid?
  simp only [scale_eq]
  split
  · rfl
  · rfl
  · rfl
  next hbelow habove =>
    rcases neighbour_between (Nat.mul_pos hgap hscale) hlow hhigh hstep hfine with
      ⟨hleft, hright⟩ | ⟨hleft, hright⟩
    · exact nomatch hbelow.symm.trans (readsBack_of_lt hleft hright)
    · exact nomatch habove.symm.trans (readsBack_of_lt hleft hright)

/-- The exponent of the finest grid for values of a number of bits. -/
def finest (bits : Nat) : Int := (((bits : Int) - 1073) * 30103).fdiv 100000 + 1 - (19 : Nat)

theorem finest_spec {bits : Nat} (hbits : bits < 2098) :
    10 ^ (finest bits).toNat * quartersPerOne * 2 ^ 52 ≤
      2 * 2 ^ bits * 10 ^ (-finest bits).toNat := by
  -- a logarithm of two to five places is enough for as many bits as values have
  have hall : ((List.range 2098).all fun bits =>
      Nat.ble (10 ^ (finest bits).toNat * quartersPerOne * 2 ^ 52)
        (2 * 2 ^ bits * 10 ^ (-finest bits).toNat)) = true := by decide +kernel
  exact Nat.le_of_ble_eq_true (List.all_eq_true.1 hall bits (List.mem_range.2 hbits))

theorem two_pow_log2_units_le (hpos : 0 < units magnitude) :
    2 ^ Nat.log2 (units magnitude) ≤ gap magnitude * 2 ^ 52 := by
  have hfraction := Binary64.fraction_lt magnitude
  have hsize : units magnitude < 2 ^ 53 * 2 ^ (Binary64.exponentField magnitude - 1) := by
    rw [Binary64.fractionCount_eq] at hfraction
    unfold units gap
    split
    next hzero =>
      rw [hzero]
      omega
    next =>
      refine Nat.mul_lt_mul_of_pos_right ?_ (Nat.two_pow_pos _)
      rw [Binary64.fractionCount_eq]
      omega
  rw [← Nat.pow_add] at hsize
  have hbits := (Nat.log2_lt hpos.ne').2 hsize
  calc 2 ^ Nat.log2 (units magnitude)
      ≤ 2 ^ (Binary64.exponentField magnitude - 1 + 52) :=
        Nat.pow_le_pow_right (by decide) (by omega)
    _ = gap magnitude * 2 ^ 52 := Nat.pow_add _ _ _

theorem isSome_finest (tie : Tie) {m : Fin infinityMagnitude} (hpos : 0 < units m) :
    (onGrid? tie m (finest (Nat.log2 (units m)))).isSome = true := by
  refine isSome_onGrid? tie hpos ?_
  have hbits : Nat.log2 (units m) < 2098 := by
    refine (Nat.log2_lt hpos.ne').2 ?_
    have hless := Binary64.units_lt_units_iff.2 m.isLt
    have hend : units infinityMagnitude = 2 ^ 2098 := by decide +kernel
    omega
  refine Nat.le_of_mul_le_mul_right (c := 2 ^ 52) ?_ (Nat.two_pow_pos _)
  calc 10 ^ (finest (Nat.log2 (units m))).toNat * quartersPerOne * 2 ^ 52
      ≤ 2 * 2 ^ Nat.log2 (units m) * 10 ^ (-finest (Nat.log2 (units m))).toNat :=
        finest_spec hbits
    _ ≤ 2 * (gap m * 2 ^ 52) * 10 ^ (-finest (Nat.log2 (units m))).toNat :=
        Nat.mul_le_mul_right _ (Nat.mul_le_mul_left 2 (two_pow_log2_units_le hpos))
    _ = 2 * gap m * 10 ^ (-finest (Nat.log2 (units m))).toNat * 2 ^ 52 := by ring

/-- A shortest decimal reads back as the magnitude that it was made for. -/
theorem readsBack_ofMagnitude (tie : Tie) {m : Fin infinityMagnitude} (hpos : 0 < units m) :
    readsBack m (ofMagnitude tie m).exponent (ofMagnitude tie m).digits = true := by
  rcases readsBack_or_none tie m with hreads | ⟨-, hnone⟩
  · exact hreads
  · -- the last of the grids has a point in the interval
    have hsome := isSome_finest tie hpos
    have hlast : onGrid? tie m (finest (Nat.log2 (units m))) = none := hnone 19 (by decide)
    rw [hlast] at hsome
    exact nomatch hsome

end ShortDecimal

namespace Binary64

theorem inInterval_shortOf (m : Fin infinityMagnitude) :
    InInterval m (shortOf m).numerator (shortOf m).denominator := by
  unfold shortOf
  split
  next hzero =>
    rw [ShortDecimal.numerator_of_digits_eq_zero rfl, hzero]
    exact .zero _
  next hne =>
    have hpos : units 0 < units m := units_lt_units_iff.2 (Nat.pos_of_ne_zero hne)
    exact ShortDecimal.inInterval_of_readsBack (ShortDecimal.readsBack_ofMagnitude .up hpos)

/-- The number nearest to a shortest decimal is the one that it was made for. -/
theorem nearest_shortOf (negative : Bool) (m : Fin infinityMagnitude) :
    nearest negative (shortOf m).numerator (shortOf m).denominator = .finite negative m :=
  nearest_of_inInterval negative (ShortDecimal.denominator_pos _) (inInterval_shortOf m)

theorem nearest_zero (negative : Bool) {den : Nat} (hden : 0 < den) :
    nearest negative 0 den = signedZero negative :=
  nearest_of_inInterval negative hden (.zero den)

theorem exponent_shortOf_of_digits_eq_zero {m : Fin infinityMagnitude}
    (hnone : (shortOf m).digits = 0) : (shortOf m).exponent = 0 := by
  have hnearest := nearest_shortOf false m
  rw [ShortDecimal.numerator_of_digits_eq_zero hnone,
    nearest_zero false (ShortDecimal.denominator_pos _)] at hnearest
  cases hnearest
  rfl

/-! ## Scientific notation -/

theorem lt_pow_length_toDigits (n : Nat) : n < 10 ^ (Nat.toDigits 10 n).length :=
  (Nat.length_toDigits_le_iff (by decide) Nat.length_toDigits_pos).1 (Nat.le_refl _)

theorem pow_le_of_length_toDigits {n k : Nat} (hn : n ≠ 0) (hk : k < (Nat.toDigits 10 n).length) :
    10 ^ k ≤ n := by
  rcases Nat.eq_zero_or_pos k with rfl | hpos
  · exact Nat.pos_of_ne_zero hn
  · refine Nat.le_of_not_lt fun hlt => ?_
    have hle := (Nat.length_toDigits_le_iff (by decide) hpos).2 hlt
    omega

section Sizes

variable (negative : Bool) {d : ShortDecimal}

/-- Less than half a unit is nothing. -/
theorem nearest_of_small (hsmall : (Nat.toDigits 10 d.digits).length + d.exponent < -400) :
    nearest negative d.numerator d.denominator = signedZero negative := by
  refine nearest_of_inInterval negative d.denominator_pos ?_
  have hhalf : 2 * unitsPerOne ≤ 10 ^ 400 := by decide +kernel
  have hless : d.digits * (2 * unitsPerOne) ≤ d.denominator := by
    unfold ShortDecimal.denominator ShortDecimal.places
    calc d.digits * (2 * unitsPerOne)
        ≤ 10 ^ (Nat.toDigits 10 d.digits).length * 10 ^ 400 :=
          Nat.mul_le_mul (lt_pow_length_toDigits d.digits).le hhalf
      _ = 10 ^ ((Nat.toDigits 10 d.digits).length + 400) := (pow_add _ _ _).symm
      _ ≤ 10 ^ (-d.exponent).toNat := Nat.pow_le_pow_right (by decide) (by omega)
  have hupper : ShortDecimal.upperEnd 0 = 2 := rfl
  unfold InInterval
  dsimp only
  rw [if_pos (Nat.zero_mod 2), lowerEnd_zero, hupper, ShortDecimal.numerator_of_fraction (by omega)]
  rw [Nat.mul_left_comm] at hless
  omega

/-- Beyond all finite numbers there are the infinities. -/
theorem nearest_of_large (hdigits : d.digits ≠ 0)
    (hlarge : 400 < (Nat.toDigits 10 d.digits).length + d.exponent) :
    nearest negative d.numerator d.denominator = .infinite negative := by
  have hend : units infinityMagnitude ≤ 10 ^ 400 * unitsPerOne := by decide +kernel
  obtain ⟨k, hk⟩ : ∃ k, (Nat.toDigits 10 d.digits).length = k + 1 :=
    Nat.exists_eq_succ_of_ne_zero Nat.length_toDigits_pos.ne'
  have hleast : 10 ^ k ≤ d.digits := pow_le_of_length_toDigits hdigits (by omega)
  have hbeyond : d.denominator * units infinityMagnitude ≤ d.numerator := by
    unfold ShortDecimal.denominator ShortDecimal.numerator ShortDecimal.places
    calc 10 ^ (-d.exponent).toNat * units infinityMagnitude
        ≤ 10 ^ (-d.exponent).toNat * (10 ^ 400 * unitsPerOne) := Nat.mul_le_mul_left _ hend
      _ = 10 ^ ((-d.exponent).toNat + 400) * unitsPerOne := by rw [Nat.pow_add, Nat.mul_assoc]
      _ ≤ 10 ^ (k + d.exponent.toNat) * unitsPerOne :=
        Nat.mul_le_mul_right _ (Nat.pow_le_pow_right (by decide) (by omega))
      _ = 10 ^ k * 10 ^ d.exponent.toNat * unitsPerOne := by rw [Nat.pow_add]
      _ ≤ d.digits * 10 ^ d.exponent.toNat * unitsPerOne :=
        Nat.mul_le_mul_right _ (Nat.mul_le_mul_right _ hleast)
  rw [nearest_eq, dif_neg (Nat.not_lt.2 (le_nearestMagnitude d.denominator_pos hbeyond))]

end Sizes

/-- A decimal is rounded once, also where its size alone settles what it is rounded to. -/
theorem ofScientific_eq_nearest (negative : Bool) (d : ShortDecimal) :
    ofScientific negative d.digits d.exponent = nearest negative d.numerator d.denominator := by
  unfold ofScientific
  dsimp only
  by_cases hnone : d.digits = 0
  · rw [if_pos (.inl hnone), ShortDecimal.numerator_of_digits_eq_zero hnone,
      nearest_zero negative d.denominator_pos]
  by_cases hsmall : (Nat.toDigits 10 d.digits).length + d.exponent < -400
  · rw [if_pos (.inr hsmall), nearest_of_small negative hsmall]
  rw [if_neg (not_or.2 ⟨hnone, hsmall⟩)]
  by_cases hlarge : 400 < (Nat.toDigits 10 d.digits).length + d.exponent
  · rw [if_pos hlarge, nearest_of_large negative hnone hlarge]
  rw [if_neg hlarge]
  by_cases hwhole : 0 ≤ d.exponent
  · rw [if_pos hwhole, ShortDecimal.denominator_of_whole hwhole]
    rfl
  · rw [if_neg hwhole, ShortDecimal.numerator_of_fraction hwhole]
    rfl

end Binary64

end CampusQuery.Numeric
