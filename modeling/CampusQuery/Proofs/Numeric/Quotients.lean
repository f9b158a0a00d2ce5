import CampusQuery.Proofs.Numeric.DecimalValues
import Mathlib.Data.Nat.Cast.Field
import Mathlib.Data.Nat.Cast.Order.Field

/-!
# Quotients of decimals

A quotient by a count is carried to as many places as fit, so it is off by half
of any place that fits at most, and exact if it needs no more places. Quotients
of decimals of four places that are no half hundredths stay away from them, so
rounding such a quotient to hundredths is rounding the exact one.
-/

namespace CampusQuery.Numeric

/-! ## Nearby values -/

theorem roundAway_eq_of_near {q : ℚ} {n : ℤ} (hnear : |q - n| < 1 / 2) : roundAway q = n := by
  obtain ⟨hlow, hhigh⟩ := abs_lt.1 hnear
  unfold roundAway
  split
  · have hfloor : ⌊-q + 1 / 2⌋ = -n := by
      rw [Int.floor_eq_iff]
      push_cast
      constructor <;> linarith
    rw [hfloor, neg_neg]
  · rw [Int.floor_eq_iff]
    constructor <;> linarith

/-- A value that is closer to another than every half integer is rounds as the other does. -/
theorem roundAway_eq_of_closer {x y : ℚ} (hcloser : ∀ j : ℤ, |y - x| < |x - (j + 1 / 2)|) :
    roundAway y = roundAway x := by
  obtain ⟨n, hbelow, habove⟩ : ∃ n : ℤ, n ≤ x + 1 / 2 ∧ x + 1 / 2 < n + 1 :=
    ⟨_, Int.floor_le _, Int.lt_floor_add_one _⟩
  -- both values lie between the half integers around `n`
  have hunder : |x - ((n - 1 : ℤ) + 1 / 2)| = x + 1 / 2 - n := by
    push_cast
    rw [abs_of_nonneg] <;> linarith
  have hover : |x - (n + 1 / 2)| = n + 1 - (x + 1 / 2) := by
    rw [abs_of_neg] <;> linarith
  have hlow := hunder ▸ hcloser (n - 1)
  have hhigh := hover ▸ hcloser n
  have hnonneg := abs_nonneg (y - x)
  obtain ⟨hback, hforth⟩ := abs_le.1 (le_refl |y - x|)
  have hx : roundAway x = n := roundAway_eq_of_near (abs_lt.2 ⟨by linarith, by linarith⟩)
  have hy : roundAway y = n := roundAway_eq_of_near (abs_lt.2 ⟨by linarith, by linarith⟩)
  rw [hx, hy]

/-- A quotient of a decimal of four places is half hundredths or away from them. -/
theorem half_or_apart (numerator : ℤ) {count : Nat} (hcount : 0 < count) (j : ℤ) :
    (numerator : ℚ) / (100 * count) = j + 1 / 2 ∨
      1 / (100 * count : ℚ) ≤ |(numerator : ℚ) / (100 * count) - (j + 1 / 2)| := by
  have hpos : (0 : ℚ) < 100 * count := by positivity
  have hdistance : (numerator : ℚ) / (100 * count) - (j + 1 / 2) =
      (numerator - (2 * j + 1) * (50 * count) : ℤ) / (100 * count) := by
    rw [eq_div_iff hpos.ne', sub_mul, div_mul_cancel₀ _ hpos.ne']
    push_cast
    ring
  rw [← sub_eq_zero, hdistance]
  generalize numerator - (2 * j + 1) * (50 * (count : ℤ)) = rest
  by_cases hzero : rest = 0
  · left
    rw [hzero, Int.cast_zero, zero_div]
  · right
    have hone : (1 : ℚ) ≤ |(rest : ℚ)| := by exact_mod_cast Int.one_le_abs hzero
    rw [abs_div, abs_of_pos hpos]
    exact div_le_div_of_nonneg_right hone hpos.le

/-- Rounding a quotient at the thirteenth place or later does not change its hundredths. -/
theorem roundHundredths_eq_of_close {numerator : ℤ} {count : Nat} {q : ℚ} (hcount : 0 < count)
    (hcounted : count ≤ 10 ^ 9)
    (hclose : |q - numerator / (10 ^ 4 * count)| * 10 ^ 13 ≤ 1 / 2)
    (hexact : (∃ n : ℤ, (numerator : ℚ) / (10 ^ 4 * count) * 10 ^ 13 = n) →
      q = numerator / (10 ^ 4 * count)) :
    roundHundredths q = roundHundredths (numerator / (10 ^ 4 * count)) := by
  have hcast : (0 : ℚ) < count := by exact_mod_cast hcount
  have hscaled : (numerator : ℚ) / (10 ^ 4 * count) * 100 = numerator / (100 * count) := by
    field_simp
    norm_num
  by_cases hhalf : ∃ j : ℤ, (numerator : ℚ) / (100 * count) = j + 1 / 2
  · -- half hundredths have three places, and the quotient is exact
    obtain ⟨j, hj⟩ := hhalf
    rw [hexact ⟨(2 * j + 1) * 50000000000, ?_⟩]
    have hpower : (10 : ℚ) ^ 13 = 100 * 100000000000 := by norm_num
    rw [hpower, ← mul_assoc, hscaled, hj]
    push_cast
    ring
  · have hcloser : ∀ j : ℤ, |q * 100 - numerator / (10 ^ 4 * count) * 100| <
        |(numerator : ℚ) / (10 ^ 4 * count) * 100 - (j + 1 / 2)| := by
      intro j
      have hapart := (half_or_apart numerator hcount j).resolve_left fun hj => hhalf ⟨j, hj⟩
      have hleast : (1 : ℚ) / 10 ^ 11 ≤ 1 / (100 * count) := by
        have hbound : (count : ℚ) ≤ 10 ^ 9 := by exact_mod_cast hcounted
        refine one_div_le_one_div_of_le (by positivity) ?_
        linarith
      rw [← sub_mul, abs_mul, hscaled]
      have hhundred : |(100 : ℚ)| = 100 := abs_of_pos (by norm_num)
      rw [hhundred]
      linarith
    rw [roundHundredths, roundHundredths, roundAway_eq_of_closer hcloser]

namespace Decimal96

theorem value_strip (negative : Bool) (coefficient : Nat) (hlt : coefficient < coefficientBound)
    (scale : Nat) (hle : scale ≤ 28) :
    (strip negative coefficient hlt scale hle).value =
      signed negative (coefficient / 10 ^ scale) := by
  induction scale generalizing coefficient with
  | zero => rfl
  | succ scale ih =>
      unfold strip
      split
      next hten =>
        rw [ih]
        have hsplit : (coefficient : ℚ) = (coefficient / 10 : Nat) * 10 := by
          exact_mod_cast (Nat.div_mul_cancel (Nat.dvd_of_mod_eq_zero hten)).symm
        rw [hsplit, pow_succ, mul_div_mul_right _ _ (by norm_num)]
      next => rfl

/-- A number that is as large as the bound gives up its last place. -/
theorem fit?_coefficientBound (negative : Bool) {scale : Nat} (hpos : 0 < scale)
    (hscale : scale ≤ 28) :
    ∃ q, fit? negative coefficientBound scale = some q ∧
      |q.value - signed negative (coefficientBound / 10 ^ scale)| * 10 ^ scale ≤ 4 := by
  obtain ⟨scale, rfl⟩ := Nat.exists_eq_succ_of_ne_zero hpos.ne'
  have hkept : ¬ (roundDiv .toEven coefficientBound (Nat.pow 10 0) < coefficientBound ∧
      scale + 1 - 0 ≤ 28) := fun h => absurd h.1 (by decide)
  have hdropped : roundDiv .toEven coefficientBound (Nat.pow 10 1) < coefficientBound ∧
      scale + 1 - 1 ≤ 28 := ⟨by decide, Nat.le_of_succ_le hscale⟩
  refine ⟨⟨negative, _, _, hdropped.1, hdropped.2⟩, ?_, ?_⟩
  · unfold fit?
    rw [List.range_succ_eq_map, List.range_succ_eq_map, List.findSome?_cons, List.map_cons,
      List.findSome?_cons]
    simp only [dif_neg hkept, Nat.succ_eq_add_one, Nat.zero_add, dif_pos hdropped]
  · have hround : roundDiv .toEven coefficientBound (Nat.pow 10 1) * 10 = coefficientBound + 4 := by
      decide
    have hcast : ((roundDiv .toEven coefficientBound (Nat.pow 10 1) : Nat) : ℚ) * 10 =
        coefficientBound + 4 := by exact_mod_cast hround
    change |signed negative (_ / 10 ^ scale) - _| * _ ≤ _
    have hpower : (0 : ℚ) < 10 ^ (scale + 1) := by positivity
    have hlost : ((roundDiv .toEven coefficientBound (Nat.pow 10 1) : Nat) : ℚ) / 10 ^ scale -
        coefficientBound / 10 ^ (scale + 1) = 4 / 10 ^ (scale + 1) := by
      rw [← mul_div_mul_right _ _ (by norm_num : (10 : ℚ) ≠ 0), hcast, ← pow_succ, ← sub_div,
        add_sub_cancel_left]
    rw [signed_sub, abs_signed, hlost, abs_of_pos (by positivity), div_mul_cancel₀ _ hpower.ne']

/-- Of the places a quotient can be carried to, the most that fit are taken. -/
theorem exists_most_places {fits : Nat → Bool} {least most : Nat} (hle : least ≤ most)
    (hleast : fits least = true) :
    ∃ extra, (List.range (most + 1)).reverse.find? fits = some extra ∧ fits extra = true ∧
      least ≤ extra ∧ extra ≤ most := by
  have hmem : least ∈ (List.range (most + 1)).reverse := by
    rw [List.mem_reverse, List.mem_range]
    omega
  have hsome : ((List.range (most + 1)).reverse.find? fits).isSome := by
    rw [List.find?_isSome]
    exact ⟨least, hmem, hleast⟩
  obtain ⟨extra, hextra⟩ := Option.isSome_iff_exists.1 hsome
  have hrange : extra ∈ (List.range (most + 1)).reverse := List.mem_of_find?_eq_some hextra
  rw [List.mem_reverse, List.mem_range] at hrange
  obtain ⟨hfits, before, after, hsplit, hbefore⟩ := List.find?_eq_some_iff_append.1 hextra
  refine ⟨extra, hextra, hfits, ?_, by omega⟩
  -- the numbers of places are tried in descending order
  have hdescending : (List.range (most + 1)).reverse.Pairwise fun i j => j < i :=
    List.pairwise_reverse.2 List.pairwise_lt_range
  rw [hsplit] at hmem hdescending
  rcases List.mem_append.1 hmem with hearlier | hlater
  · have hno := hbefore least hearlier
    rw [hleast] at hno
    exact nomatch hno
  · rcases List.mem_cons.1 hlater with rfl | hlater
    · exact Nat.le_refl _
    · exact ((List.pairwise_cons.1 (List.pairwise_append.1 hdescending).2.1).1 _ hlater).le

/-- A rounded quotient is off by half a place at most. -/
theorem abs_roundDiv_sub_le (tie : Tie) (n : Nat) {count : Nat} (hcount : 0 < count) :
    |(roundDiv tie n count : ℚ) - n / count| ≤ 1 / 2 := by
  have hcast : (0 : ℚ) < count := by exact_mod_cast hcount
  have hover : (2 * (roundDiv tie n count * count) : ℚ) ≤ 2 * n + count := by
    exact_mod_cast roundDiv_mul_le tie n count
  have hunder : (2 * n : ℚ) ≤ 2 * (roundDiv tie n count * count) + count := by
    exact_mod_cast le_roundDiv_mul tie n hcount
  rw [← mul_le_mul_iff_of_pos_right hcast, ← abs_of_pos hcast, ← abs_mul, abs_of_pos hcast, sub_mul,
    div_mul_cancel₀ _ hcast.ne', abs_le]
  constructor <;> linarith

/-- A quotient that has no further places is not rounded. -/
theorem roundDiv_eq_of_whole (tie : Tie) {n count scale places k : Nat} (hcount : 0 < count)
    (hplaces : places ≤ scale) (hk : (n : ℚ) / count / 10 ^ scale * 10 ^ places = k) :
    roundDiv tie n count = n / count ∧ (roundDiv tie n count : ℚ) = n / count := by
  have hcast : (count : ℚ) ≠ 0 := by exact_mod_cast hcount.ne'
  have hdvd : n = k * 10 ^ (scale - places) * count := by
    have hsplit : (10 : ℚ) ^ scale = 10 ^ (scale - places) * 10 ^ places := by
      rw [← pow_add, Nat.sub_add_cancel hplaces]
    rw [hsplit, div_div, div_mul_eq_mul_div, div_eq_iff (by positivity)] at hk
    have hvalue : (n : ℚ) = k * 10 ^ (scale - places) * count := by
      apply mul_right_cancel₀ (pow_ne_zero places (by norm_num : (10 : ℚ) ≠ 0))
      linarith
    exact_mod_cast hvalue
  have hround : roundDiv tie n count = k * 10 ^ (scale - places) := by
    rw [hdvd, roundDiv_mul tie _ hcount]
  constructor
  · rw [hround, hdvd, Nat.mul_div_cancel _ hcount]
  · rw [hround, hdvd, eq_div_iff hcast]
    push_cast
    ring

/-- A quotient that is carried to `scale` places is right to half of every place that fits. -/
theorem exists_quotient (negative : Bool) {n count scale places : Nat} (hcount : 0 < count)
    (hplaces : places ≤ scale) (hscale : scale ≤ 28) (hfloor : n / count < coefficientBound)
    (hsize : (n : ℚ) / count / 10 ^ scale * 10 ^ places ≤ 2 ^ 96 - 1) :
    ∃ q, fit? negative (roundDiv .toEven n count) scale = some q ∧
      |q.value - signed negative (n / count / 10 ^ scale)| * 10 ^ places ≤ 1 / 2 ∧
      ((∃ k : Nat, (n : ℚ) / count / 10 ^ scale * 10 ^ places = k) →
        q.value = signed negative (n / count / 10 ^ scale)) := by
  have hclose := abs_roundDiv_sub_le .toEven n hcount
  have hpower : (0 : ℚ) < 10 ^ scale := by positivity
  have hplacesLe : (10 : ℚ) ^ places ≤ 10 ^ scale := pow_le_pow_right₀ (by norm_num) hplaces
  by_cases hfits : roundDiv .toEven n count < coefficientBound
  · refine ⟨_, fit?_of_lt negative hfits hscale, ?_, fun ⟨k, hk⟩ => ?_⟩
    · rw [value, signed_sub, abs_signed, ← sub_div, abs_div, abs_of_pos hpower]
      calc |(roundDiv .toEven n count : ℚ) - n / count| / 10 ^ scale * 10 ^ places
          ≤ |(roundDiv .toEven n count : ℚ) - n / count| / 10 ^ scale * 10 ^ scale :=
            mul_le_mul_of_nonneg_left hplacesLe (by positivity)
        _ = |(roundDiv .toEven n count : ℚ) - n / count| := div_mul_cancel₀ _ hpower.ne'
        _ ≤ 1 / 2 := hclose
    · rw [value, (roundDiv_eq_of_whole .toEven hcount hplaces hk).2]
  · -- only a quotient just below the bound is rounded up to it, and it has a place to spare
    have hbound : roundDiv .toEven n count = coefficientBound := by
      rcases roundDiv_cases .toEven n count with ⟨hsame, -⟩ | ⟨hnext, -⟩ <;> omega
    rw [hbound] at hclose ⊢
    have hspare : places < scale := by
      refine Nat.lt_of_le_of_ne hplaces fun hsame => ?_
      have hnear : (coefficientBound : ℚ) - n / count ≤ 1 / 2 := (abs_le.1 hclose).2
      have htwo : (coefficientBound : ℚ) = 2 ^ 96 := by norm_num [coefficientBound]
      rw [hsame, div_mul_cancel₀ _ hpower.ne'] at hsize
      linarith
    obtain ⟨q, hq, hdropped⟩ := fit?_coefficientBound negative (Nat.zero_lt_of_lt hspare) hscale
    have hsame : ∀ k : Nat, (n : ℚ) / count / 10 ^ scale * 10 ^ places = k →
        coefficientBound = n / count := fun k hk =>
      hbound.symm.trans (roundDiv_eq_of_whole .toEven hcount hplaces hk).1
    refine ⟨q, hq, ?_, fun ⟨k, hk⟩ => absurd hfloor (by rw [← hsame k hk]; exact Nat.lt_irrefl _)⟩
    have htenth : (10 : ℚ) ^ places * 10 ≤ 10 ^ scale := by
      rw [← pow_succ]
      exact pow_le_pow_right₀ (by norm_num) hspare
    have hrounded : |signed negative ((coefficientBound : ℚ) / 10 ^ scale) -
        signed negative (n / count / 10 ^ scale)| * 10 ^ scale ≤ 1 / 2 := by
      rwa [signed_sub, abs_signed, ← sub_div, abs_div, abs_of_pos hpower,
        div_mul_cancel₀ _ hpower.ne']
    have htotal := mul_le_mul_of_nonneg_right (abs_sub_le q.value
      (signed negative ((coefficientBound : ℚ) / 10 ^ scale))
        (signed negative (n / count / 10 ^ scale))) hpower.le
    have herror := mul_le_mul_of_nonneg_left htenth
      (abs_nonneg (q.value - signed negative (n / count / 10 ^ scale)))
    linarith

/-- Carried to any number of further places, it is the same quotient. -/
theorem carried_div (d : Decimal96) (count extra : Nat) :
    ((d.coefficient * Nat.pow 10 extra : Nat) : ℚ) / count / 10 ^ (d.scale + extra) =
      d.coefficient / 10 ^ d.scale / count := by
  rw [Nat.pow_eq, Nat.cast_mul, Nat.cast_pow, Nat.cast_ofNat, pow_add]
  field_simp

/-- The quotient by a count is right to half of every place that fits, and exact if it has no
more places than those. -/
theorem exists_divCount? {d : Decimal96} {count places : Nat} (hcount : 0 < count)
    (hscale : d.scale ≤ places) (hplaces : places ≤ 28)
    (hsize : |d.value| / count * 10 ^ places ≤ 2 ^ 96 - 1) :
    ∃ q, d.divCount? count = some q ∧ |q.value - d.value / count| * 10 ^ places ≤ 1 / 2 ∧
      ((∃ k : ℤ, d.value / count * 10 ^ places = k) → q.value = d.value / count) := by
  have hexact : ∀ q : Decimal96, q.value = d.value / count →
      |q.value - d.value / count| * 10 ^ places ≤ 1 / 2 ∧
        ((∃ k : ℤ, d.value / count * 10 ^ places = k) → q.value = d.value / count) := by
    intro q hq
    rw [hq, sub_self, abs_zero, zero_mul]
    exact ⟨by norm_num, fun _ => rfl⟩
  have hquotient : d.value / count = signed d.negative (d.coefficient / 10 ^ d.scale / count) :=
    signed_div _ _ _
  unfold divCount?
  rw [if_neg hcount.ne']
  split
  next hzero =>
    refine ⟨0, rfl, hexact 0 ?_⟩
    rw [value_zero, value_eq_zero_iff.2 hzero, zero_div]
  split
  next hdvd =>
    have hfits : d.coefficient / count < coefficientBound :=
      (Nat.div_le_self _ _).trans_lt d.coefficient_lt
    refine ⟨_, fit?_of_lt d.negative hfits d.scale_le, hexact _ ?_⟩
    rw [value, hquotient, Nat.cast_div (Nat.dvd_of_mod_eq_zero hdvd) (by exact_mod_cast hcount.ne'),
      div_right_comm]
  next =>
    have hleast : d.coefficient * Nat.pow 10 (places - d.scale) / count < coefficientBound := by
      have hfloor : ((d.coefficient * Nat.pow 10 (places - d.scale) / count : Nat) : ℚ) ≤
          |d.value| / count * 10 ^ places := by
        refine Nat.cast_div_le.trans_eq ?_
        rw [abs_value, ← d.carried_div count (places - d.scale), Nat.add_sub_cancel' hscale,
          div_mul_cancel₀ _ (by positivity)]
      have hlt : ((d.coefficient * Nat.pow 10 (places - d.scale) / count : Nat) : ℚ) < 2 ^ 96 := by
        linarith
      exact_mod_cast hlt
    obtain ⟨extra, hfound, hfits, hmore, hfew⟩ := @exists_most_places
      (fun extra => d.coefficient * Nat.pow 10 extra / count < coefficientBound) _ _
      (Nat.sub_le_sub_right hplaces d.scale) (decide_eq_true hleast)
    have hscaleLe : d.scale + extra ≤ 28 := by
      have hown := d.scale_le
      omega
    obtain ⟨q, hq, hclose, hsame⟩ := exists_quotient d.negative hcount
      (Nat.sub_le_iff_le_add'.1 hmore) hscaleLe (of_decide_eq_true hfits)
      (by rwa [carried_div, ← abs_value])
    rw [carried_div, ← hquotient] at hclose hsame
    dsimp only
    rw [hfound, Option.getD_some, hq]
    refine ⟨_, rfl, ?_⟩
    rw [value_strip]
    refine ⟨hclose, ?_⟩
    rintro ⟨k, hk⟩
    refine hsame ⟨k.natAbs, ?_⟩
    rw [Nat.cast_natAbs, Int.cast_abs, ← hk, hquotient, signed_mul, abs_signed,
      abs_of_nonneg (by positivity)]

end Decimal96

end CampusQuery.Numeric
