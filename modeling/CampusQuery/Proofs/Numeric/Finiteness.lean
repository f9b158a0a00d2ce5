import CampusQuery.Numeric.Decimal96
import CampusQuery.Proofs.Numeric.Nearest

/-!
# Which results are finite

Operations on numbers within powers of two stay within powers of two. Every
96-bit decimal therefore has a finite binary64 number, and rounding to hundredths
never leaves the finite numbers.
-/

namespace CampusQuery.Numeric

namespace Binary64

theorem isFinite_iff {x : Binary64} :
    x.isFinite = true ↔ ∃ negative magnitude, x = .finite negative magnitude := by
  cases x <;> simp [isFinite]

/-- Magnitudes are ordered as their values. -/
theorem units_le_units {m n : Nat} (hle : m ≤ n) : units m ≤ units n := by
  by_contra hlt
  -- the value of `n` would round to `n` and, being below that of `m`, to `m` at most
  have hup : n ≤ nearestMagnitude (units n) 1 := le_nearestMagnitude (by decide) (by omega)
  have hdown : nearestMagnitude (units n) 1 ≤ m := nearestMagnitude_le (by decide) (by omega)
  have hsame : m = n := by omega
  rw [hsame] at hlt
  exact hlt (Nat.le_refl _)

/-- A quotient that is at most a finite value is rounded to a finite number. -/
theorem exists_nearest_eq (negative : Bool) {num den : Nat} (hden : 0 < den)
    {m : Fin infinityMagnitude} (hle : num ≤ den * units m) :
    ∃ magnitude : Fin infinityMagnitude,
      nearest negative num den = .finite negative magnitude ∧ magnitude.val ≤ m.val := by
  have hbound := nearestMagnitude_le hden hle
  rw [nearest_eq, dif_pos (hbound.trans_lt m.isLt)]
  exact ⟨_, rfl, hbound⟩

theorem isFinite_nearest_iff (negative : Bool) (num : Nat) :
    (nearest negative num 1).isFinite = true ↔ num < overflowUnits := by
  rw [nearest_eq, ← nearestMagnitude_lt_iff]
  split
  next hlt => exact iff_of_true rfl hlt
  next hnot => exact iff_of_false (by simp [isFinite]) hnot

/-- A sum of finite numbers is finite exactly if the exact sum is below the overflow bound. -/
theorem isFinite_add_iff (a b : Bool) (m n : Fin infinityMagnitude) :
    (finite a m + finite b n).isFinite = true ↔
      (signedUnits a m + signedUnits b n).natAbs < overflowUnits := by
  change Binary64.isFinite (if signedUnits a m + signedUnits b n = 0 then _ else _) = true ↔ _
  split
  next hzero =>
    rw [hzero]
    exact iff_of_true rfl overflowUnits_pos
  next => exact isFinite_nearest_iff _ _

/-- No number brings a sum back to the finite numbers. -/
theorem isFinite_of_add {x y : Binary64} (hsum : (x + y).isFinite = true) : x.isFinite = true := by
  cases x with
  | finite negative magnitude => rfl
  | infinite a =>
      cases y with
      | finite negative magnitude => exact nomatch hsum
      | infinite b =>
          change Binary64.isFinite (if a = b then .infinite a else .nan) = true at hsum
          split at hsum <;> exact nomatch hsum
      | nan => exact nomatch hsum
  | nan => exact nomatch hsum

/-! ## Bounds by powers of two -/

/-- One is this power of two, in units. -/
def oneExponent : Nat := 1074

theorem unitsPerOne_eq : unitsPerOne = 2 ^ oneExponent := rfl

theorem unitsPerOne_pos : 0 < unitsPerOne := unitsPerOne_eq ▸ Nat.two_pow_pos oneExponent

/-- The magnitude of a power of two, in units. -/
def powerMagnitude (k : Nat) : Nat := (k - 51) * fractionCount

theorem units_powerMagnitude {k : Nat} (hk : 52 ≤ k) : units (powerMagnitude k) = 2 ^ k := by
  have hfield : exponentField (powerMagnitude k) = (k - 52) + 1 := by
    rw [exponentField, powerMagnitude, Nat.mul_div_cancel _ (by decide)]
    omega
  have hfraction : fraction (powerMagnitude k) = 0 := Nat.mul_mod_left _ _
  rw [units_of_normal hfield, hfraction, Nat.add_zero, fractionCount_eq, ← Nat.pow_add]
  congr 1
  omega

theorem powerMagnitude_lt {k : Nat} (hk : k ≤ 2097) : powerMagnitude k < infinityMagnitude :=
  Nat.mul_lt_mul_of_pos_right (by omega) (by decide)

/-- A finite number of at most `2 ^ k` units. -/
def Within (k : Nat) (x : Binary64) : Prop :=
  ∃ negative magnitude, x = .finite negative magnitude ∧ units magnitude ≤ 2 ^ k

theorem Within.isFinite {k : Nat} {x : Binary64} (hx : x.Within k) : x.isFinite = true := by
  obtain ⟨negative, magnitude, rfl, -⟩ := hx
  rfl

theorem Within.mono {j k : Nat} {x : Binary64} (hx : x.Within j) (hle : j ≤ k) : x.Within k := by
  obtain ⟨negative, magnitude, rfl, hunits⟩ := hx
  exact ⟨negative, magnitude, rfl, hunits.trans (Nat.pow_le_pow_right (by decide) hle)⟩

theorem within_signedZero (negative : Bool) (k : Nat) : (signedZero negative).Within k :=
  ⟨negative, _, rfl, Nat.zero_le _⟩

theorem within_nearest (negative : Bool) {num den k : Nat} (hden : 0 < den) (hlow : 52 ≤ k)
    (hhigh : k ≤ 2097) (hle : num ≤ den * 2 ^ k) : (nearest negative num den).Within k := by
  rw [← units_powerMagnitude hlow] at hle
  obtain ⟨magnitude, heq, hmagnitude⟩ :=
    @exists_nearest_eq negative num den hden ⟨powerMagnitude k, powerMagnitude_lt hhigh⟩ hle
  refine ⟨negative, magnitude, heq, (units_le_units hmagnitude).trans ?_⟩
  rw [units_powerMagnitude hlow]

theorem natAbs_signedUnits (negative : Bool) (m : Nat) :
    (signedUnits negative m).natAbs = units m := by
  unfold signedUnits
  split <;> simp

theorem Within.add {k : Nat} {x y : Binary64} (hx : x.Within k) (hy : y.Within k) (hlow : 52 ≤ k)
    (hhigh : k + 1 ≤ 2097) : (x + y).Within (k + 1) := by
  obtain ⟨a, m, rfl, hm⟩ := hx
  obtain ⟨b, n, rfl, hn⟩ := hy
  change Binary64.Within (k + 1) (if signedUnits a m + signedUnits b n = 0 then _ else _)
  split
  · exact within_signedZero _ _
  · refine within_nearest _ (by decide) (by omega) hhigh ?_
    have hsum := Int.natAbs_add_le (signedUnits a m) (signedUnits b n)
    rw [natAbs_signedUnits, natAbs_signedUnits] at hsum
    rw [Nat.one_mul, Nat.pow_succ]
    omega

theorem finite_mul_finite (a b : Bool) (m n : Fin infinityMagnitude) :
    finite a m * finite b n = nearest (a != b) (units m * units n) unitsPerOne := by
  change Binary64.mul _ _ = _
  rw [Binary64.mul]

theorem Within.mul {j k l : Nat} {x y : Binary64} (hx : x.Within j) (hy : y.Within k)
    (hsum : j + k = oneExponent + l) (hlow : 52 ≤ l) (hhigh : l ≤ 2097) : (x * y).Within l := by
  obtain ⟨a, m, rfl, hm⟩ := hx
  obtain ⟨b, n, rfl, hn⟩ := hy
  rw [finite_mul_finite]
  refine within_nearest (a != b) unitsPerOne_pos hlow hhigh ?_
  calc units m * units n ≤ 2 ^ j * 2 ^ k := Nat.mul_le_mul hm hn
    _ = unitsPerOne * 2 ^ l := by rw [unitsPerOne_eq, ← Nat.pow_add, ← Nat.pow_add, hsum]

/-- A finite number that is one at least, whatever its sign. -/
def AtLeastOne (x : Binary64) : Prop :=
  ∃ negative magnitude, x = .finite negative magnitude ∧ unitsPerOne ≤ units magnitude

theorem AtLeastOne.magnitude_ne_zero {m : Nat} (hm : unitsPerOne ≤ units m) : m ≠ 0 := by
  rintro rfl
  exact absurd (unitsPerOne_pos.trans_le hm) (Nat.lt_irrefl 0)

/-- Dividing by a number that is one at least does not leave the finite numbers. -/
theorem exists_div_eq {negative : Bool} {m : Fin infinityMagnitude} {y : Binary64}
    (hy : y.AtLeastOne) :
    ∃ (sign : Bool) (magnitude : Fin infinityMagnitude),
      .finite negative m / y = .finite sign magnitude ∧ magnitude.val ≤ m.val := by
  obtain ⟨b, n, rfl, hn⟩ := hy
  have hpositive : 0 < units n := unitsPerOne_pos.trans_le hn
  have hquotient : units m * unitsPerOne ≤ units n * units m := by
    rw [Nat.mul_comm (units m)]
    exact Nat.mul_le_mul_right _ hn
  obtain ⟨magnitude, heq, hle⟩ := exists_nearest_eq (negative != b) hpositive hquotient
  refine ⟨negative != b, magnitude, ?_, hle⟩
  change (if n.val = 0 then _ else nearest _ _ _) = _
  rw [if_neg (AtLeastOne.magnitude_ne_zero hn), heq]

theorem Within.div {k : Nat} {x y : Binary64} (hx : x.Within k) (hy : y.AtLeastOne) :
    (x / y).Within k := by
  obtain ⟨a, m, rfl, hm⟩ := hx
  obtain ⟨sign, magnitude, heq, hle⟩ := @exists_div_eq a m y hy
  exact ⟨sign, magnitude, heq, (units_le_units hle).trans hm⟩

theorem isFinite_div {x y : Binary64} (hx : x.isFinite = true) (hy : y.AtLeastOne) :
    (x / y).isFinite = true := by
  obtain ⟨negative, m, rfl⟩ := isFinite_iff.1 hx
  obtain ⟨sign, magnitude, heq, -⟩ := @exists_div_eq negative m y hy
  rw [heq]
  rfl

theorem within_ofNat {n j : Nat} (hn : n ≤ 2 ^ j) (hj : j ≤ 1023) :
    (ofNat n).Within (oneExponent + j) := by
  have hlow : 52 ≤ oneExponent + j := by unfold oneExponent; omega
  have hhigh : oneExponent + j ≤ 2097 := by unfold oneExponent; omega
  refine within_nearest false Nat.one_pos hlow hhigh ?_
  rw [Nat.one_mul, Nat.pow_add, ← unitsPerOne_eq, Nat.mul_comm]
  exact Nat.mul_le_mul_left _ hn

/-- The number of a positive count is one at least, or too large to be finite. -/
theorem ofNat_cases {n : Nat} (hpositive : 0 < n) :
    (ofNat n).AtLeastOne ∨ ofNat n = .infinite false := by
  have hone : units (powerMagnitude oneExponent) = unitsPerOne :=
    (units_powerMagnitude (by decide)).trans unitsPerOne_eq.symm
  have hle : 1 * units (powerMagnitude oneExponent) ≤ n * unitsPerOne := by
    rw [hone, Nat.one_mul]
    exact Nat.le_mul_of_pos_left _ hpositive
  have hmagnitude := le_nearestMagnitude Nat.one_pos hle
  rw [ofNat, nearest_eq]
  split
  · exact .inl ⟨false, _, rfl, hone.symm.le.trans (units_le_units hmagnitude)⟩
  · exact .inr rfl

theorem atLeastOne_ofNat {n j : Nat} (hpositive : 0 < n) (hn : n ≤ 2 ^ j) (hj : j ≤ 1023) :
    (ofNat n).AtLeastOne := by
  refine (ofNat_cases hpositive).resolve_right fun hinfinite => ?_
  have hfinite := (within_ofNat hn hj).isFinite
  rw [hinfinite] at hfinite
  exact nomatch hfinite

theorem Within.roundToInteger {j : Nat} {x : Binary64} (hx : x.Within (oneExponent + j))
    (hj : j ≤ 1023) : x.roundToInteger.Within (oneExponent + j) := by
  obtain ⟨negative, m, rfl, hm⟩ := hx
  rw [Nat.pow_add, ← unitsPerOne_eq] at hm
  have hround : roundDiv .up (units m) unitsPerOne ≤ 2 ^ j :=
    roundDiv_le_of_le unitsPerOne_pos hm
  have hlow : 52 ≤ oneExponent + j := by unfold oneExponent; omega
  have hhigh : oneExponent + j ≤ 2097 := by unfold oneExponent; omega
  rw [Binary64.roundToInteger]
  refine within_nearest negative Nat.one_pos hlow hhigh ?_
  rw [Nat.one_mul, Nat.pow_add, ← unitsPerOne_eq, Nat.mul_comm]
  exact Nat.mul_le_mul_left _ hround

theorem wholeFrom_eq : wholeFrom = powerMagnitude (oneExponent + 52) := rfl

/-- Rounding to hundredths keeps finite numbers finite, and only these: below `2 ^ 52` hundredths
are far from overflowing, and from there on nothing is rounded. -/
theorem isFinite_roundToHundredths {x : Binary64} :
    x.roundToHundredths.isFinite = x.isFinite := by
  cases x with
  | finite negative m =>
      unfold Binary64.roundToHundredths
      dsimp only
      split
      · rfl
      next hsmall =>
        have hm : units m ≤ 2 ^ (oneExponent + 52) := by
          rw [← units_powerMagnitude (by decide : 52 ≤ oneExponent + 52), ← wholeFrom_eq]
          exact units_le_units (Nat.le_of_not_le hsmall)
        have hx : (finite negative m).Within (oneExponent + 52) := ⟨negative, m, rfl, hm⟩
        have hhundred : (ofNat 100).Within (oneExponent + 7) := within_ofNat (by decide) (by decide)
        have hproduct : (finite negative m * ofNat 100).Within (oneExponent + 59) :=
          hx.mul hhundred (by decide) (by decide) (by decide)
        have hone : (ofNat 100).AtLeastOne :=
          atLeastOne_ofNat (by decide) (by decide : 100 ≤ 2 ^ 7) (by decide)
        exact ((hproduct.roundToInteger (by decide)).div hone).isFinite
  | infinite negative => rfl
  | nan => rfl

theorem isFinite_neg (x : Binary64) : (-x).isFinite = x.isFinite := by
  cases x <;> rfl

/-- A mean is finite exactly if what is divided is, however large the count. -/
theorem isFinite_div_ofNat (x : Binary64) {n : Nat} (hpositive : 0 < n) :
    (x / ofNat n).isFinite = x.isFinite := by
  rcases ofNat_cases hpositive with hone | hinfinite
  · cases x with
    | finite negative magnitude => exact isFinite_div rfl hone
    | infinite negative =>
        obtain ⟨sign, magnitude, heq, -⟩ := hone
        rw [heq]
        rfl
    | nan => rfl
  · rw [hinfinite]
    cases x <;> rfl

theorem max_eq_or (x y : Binary64) : x.max y = x ∨ x.max y = y := by
  unfold Binary64.max
  split
  · exact .inr rfl
  · exact .inl rfl
  · split
    · exact .inr rfl
    · exact .inl rfl

theorem min_eq_or (x y : Binary64) : x.min y = x ∨ x.min y = y := by
  unfold Binary64.min
  split
  · exact .inr rfl
  · exact .inl rfl
  · split
    · exact .inr rfl
    · exact .inl rfl

end Binary64

namespace Decimal96

open Binary64

theorem power_le {scale : Nat} (hle : scale ≤ 28) : 10 ^ scale ≤ 2 ^ 94 :=
  (Nat.pow_le_pow_right (by decide) hle).trans (by decide)

/-- Every decimal has a finite number: whole part, fraction and scaled sum all stay far below
the largest one. -/
theorem isFinite_toBinary64 (d : Decimal96) : d.toBinary64.isFinite = true := by
  have hpositive : 0 < 10 ^ d.scale := Nat.pow_pos (by decide)
  have hpower : 10 ^ d.scale ≤ 2 ^ 94 := power_le d.scale_le
  have hcoefficient : d.coefficient < 2 ^ 96 := d.coefficient_lt
  have hquotient : d.coefficient / 10 ^ d.scale ≤ 2 ^ 96 :=
    (Nat.div_le_self _ _).trans hcoefficient.le
  have hremainder : d.coefficient % 10 ^ d.scale ≤ 2 ^ 94 :=
    (Nat.mod_lt _ hpositive).le.trans hpower
  have hdivisor : (ofNat (10 ^ d.scale)).AtLeastOne :=
    atLeastOne_ofNat hpositive hpower (by decide)
  have hwhole : (ofNat (d.coefficient / 10 ^ d.scale)).Within (oneExponent + 96) :=
    within_ofNat hquotient (by decide)
  have hpart : (ofNat (d.coefficient % 10 ^ d.scale) / ofNat (10 ^ d.scale)).Within
      (oneExponent + 94) :=
    (within_ofNat hremainder (by decide)).div hdivisor
  have hmagnitude : (if d.scale = 0 ∨
      (ofNat (d.coefficient % 10 ^ d.scale) / ofNat (10 ^ d.scale)).isZero then
        ofNat (d.coefficient / 10 ^ d.scale)
      else ((ofNat (d.coefficient / 10 ^ d.scale) +
          ofNat (d.coefficient % 10 ^ d.scale) / ofNat (10 ^ d.scale)) *
        ofNat (10 ^ d.scale)).roundToInteger / ofNat (10 ^ d.scale)).isFinite = true := by
    split
    · exact hwhole.isFinite
    · -- at most 97 bits times at most 94, far from the largest exponent
      have hsum := hwhole.add (hpart.mono (by decide)) (by decide) (by decide)
      have hscale : (ofNat (10 ^ d.scale)).Within (oneExponent + 94) :=
        within_ofNat hpower (by decide)
      have hproduct := @Within.mul _ _ (oneExponent + 191) _ _ hsum hscale
        (by decide) (by decide) (by decide)
      exact ((hproduct.roundToInteger (by decide)).div hdivisor).isFinite
  unfold toBinary64
  dsimp only
  rw [Nat.pow_eq]
  split
  · rw [isFinite_neg]
    exact hmagnitude
  · exact hmagnitude

end Decimal96

end CampusQuery.Numeric
