import CampusQuery.Proofs.Numeric.Quotients
import CampusQuery.Proofs.Query.Sums

/-!
# Means of small numbers

Numbers of up to four places and up to a quadrillion fit together, up to a
milliard of them. Their mean is then carried to thirteen places at least, too
many for its rounding to be felt in the hundredths.
-/

namespace CampusQuery.Query

open Numeric Binary64

/-- Up to `10 ^ 9` numbers of up to four places, each at most `10 ^ 15` in size. -/
structure AreSmall (numbers : List Binary64) : Prop where
  length_le : numbers.length ≤ 10 ^ 9
  finite : ∀ n ∈ numbers, n.isFinite = true
  few_places : ∀ n ∈ numbers, fractionDigits n.plain ≤ 4
  size_le : ∀ n ∈ numbers, n.valueUnits.natAbs ≤ 10 ^ 15 * unitsPerOne

section Small

variable {numbers order before after : List Binary64}

namespace AreSmall

theorem perm (hsmall : AreSmall numbers) (hperm : order.Perm numbers) : AreSmall order where
  length_le := hperm.length_eq ▸ hsmall.length_le
  finite n hn := hsmall.finite n (hperm.mem_iff.1 hn)
  few_places n hn := hsmall.few_places n (hperm.mem_iff.1 hn)
  size_le n hn := hsmall.size_le n (hperm.mem_iff.1 hn)

theorem sizes_le (hsmall : AreSmall numbers) :
    (numbers.map fun n => |n.decimal|).sum ≤ numbers.length * (2 * 10 ^ 15) := by
  have heach : ∀ q ∈ numbers.map fun n => |n.decimal|, q ≤ 2 * 10 ^ 15 := by
    intro q hq
    obtain ⟨n, hn, rfl⟩ := List.mem_map.1 hq
    have hle := @abs_decimal_le n (10 ^ 15) (by decide) (hsmall.size_le n hn) (hsmall.finite n hn)
    exact_mod_cast hle
  have hsum := List.sum_le_card_nsmul _ _ heach
  rwa [List.length_map, nsmul_eq_mul] at hsum

theorem fitTogether (hsmall : AreSmall numbers) : FitTogether 4 numbers where
  places_le := by decide
  finite := hsmall.finite
  few_places := hsmall.few_places
  sizes_le := by
    have hsizes := hsmall.sizes_le
    have hlength : (numbers.length : ℚ) ≤ 10 ^ 9 := by exact_mod_cast hsmall.length_le
    linarith

end AreSmall

/-- The exact mean of what the plain texts of numbers say. -/
def exactMean (numbers : List Binary64) : ℚ := exactSum numbers / numbers.length

theorem exactMean_perm (hperm : order.Perm numbers) : exactMean order = exactMean numbers := by
  rw [exactMean, exactMean, exactSum_perm hperm, hperm.length_eq]

/-- The decimal mean of small numbers has the hundredths of the exact one. -/
theorem AreSmall.exists_mean (hsmall : AreSmall numbers) (hfilled : numbers ≠ []) :
    ∃ sum mean, Total.ofNumbers numbers = .exact sum ∧
      sum.divCount? numbers.length = some mean ∧
      mean.roundToHundredths.value = roundHundredths (exactMean numbers) := by
  obtain ⟨sum, hsum, hvalue, hscale⟩ := Total.exists_ofNumbers hsmall.fitTogether
  have hcount : 0 < numbers.length := List.length_pos_iff.2 hfilled
  have hcast : (0 : ℚ) < numbers.length := by exact_mod_cast hcount
  have hsize : |sum.value| / numbers.length * 10 ^ 13 ≤ 2 ^ 96 - 1 := by
    have hle : |sum.value| / numbers.length ≤ 2 * 10 ^ 15 := by
      rw [div_le_iff₀ hcast, hvalue, mul_comm]
      exact (abs_exactSum_le numbers).trans hsmall.sizes_le
    linarith
  obtain ⟨mean, hmean, hclose, hexact⟩ :=
    Decimal96.exists_divCount? hcount (hscale.trans (by decide)) (by decide) hsize
  -- over ten thousands the sum is a whole number
  have hquotient : sum.value / numbers.length =
      sum.signedCoefficient 4 / (10 ^ 4 * numbers.length) := by
    rw [Decimal96.signedCoefficient_eq hscale]
    field_simp
  rw [hquotient] at hclose hexact
  refine ⟨sum, mean, hsum, hmean, ?_⟩
  rw [Decimal96.value_roundToHundredths, exactMean, ← hvalue, hquotient]
  exact roundHundredths_eq_of_close hcount hsmall.length_le hclose hexact

end Small

theorem Total.mean?_exact {sum mean : Decimal96} {count : Nat} (hcount : count ≠ 0)
    (hmean : sum.divCount? count = some mean) :
    (Total.exact sum).mean? count = some (.exact mean) := by
  rw [mean?, if_neg hcount, hmean]

/-- In every order, small numbers have exact running totals, and the decimal that AVG converts is
their exact mean rounded to hundredths. -/
theorem means_are_exact {numbers : List Binary64} (hfilled : numbers ≠ [])
    (hsmall : AreSmall numbers) (order : List Binary64) (hperm : order.Perm numbers) :
    (∀ before after, order = before ++ after →
      ∃ sum, (before.map Value.number).foldlM Accumulator.add (Accumulator.start .avg) =
        .ok (.avg (.exact sum) before.length) ∧ sum.value = exactSum before) ∧
    ∃ sum mean, (order.map Value.number).foldlM Accumulator.add (Accumulator.start .avg) =
        .ok (.avg (.exact sum) numbers.length) ∧
      sum.divCount? numbers.length = some mean ∧
      (Accumulator.avg (.exact sum) numbers.length).finish =
        .ok mean.roundToHundredths.toBinary64 ∧
      mean.roundToHundredths.value = roundHundredths (exactMean numbers) := by
  have hsame := hperm.length_eq
  constructor
  · rintro before after rfl
    obtain ⟨sum, hsum, hvalue, -⟩ :=
      Total.exists_ofNumbers (hsmall.perm hperm).fitTogether.of_append
    exact ⟨sum, by rw [foldlM_avg, hsum], hvalue⟩
  · have horder : order ≠ [] := fun hnil => hfilled (List.perm_nil.1 (hnil ▸ hperm.symm))
    obtain ⟨sum, mean, hsum, hmean, hvalue⟩ := (hsmall.perm hperm).exists_mean horder
    rw [hsame] at hmean
    rw [exactMean_perm hperm] at hvalue
    have hcount : numbers.length ≠ 0 := by simpa using hfilled
    refine ⟨sum, mean, by rw [foldlM_avg, hsum, hsame], hmean, ?_, hvalue⟩
    rw [Accumulator.finish, Total.mean?_exact hcount hmean]
    rfl

theorem areSmall_threeAverages : AreSmall threeAverages where
  length_le := by decide
  finite := by decide +kernel
  few_places := by decide +kernel
  size_le := by decide +kernel

theorem three_averages_mean_exactly :
    threeAverages ≠ [] ∧ AreSmall threeAverages ∧ exactMean threeAverages = 24017 / 300 ∧
      ∃ sum mean, (threeAverages.reverse.map Value.number).foldlM Accumulator.add (.start .avg) =
          .ok (.avg (.exact sum) 3) ∧
        sum.divCount? 3 = some mean ∧ mean.roundToHundredths.value = 8006 / 100 := by
  have hrounded : roundHundredths (exactMean threeAverages) = 8006 / 100 := by decide +kernel
  obtain ⟨-, sum, mean, hfold, hmean, -, hvalue⟩ := means_are_exact (List.cons_ne_nil _ _)
    areSmall_threeAverages _ threeAverages.reverse_perm
  exact ⟨List.cons_ne_nil _ _, areSmall_threeAverages, by decide +kernel, sum, mean, hfold, hmean,
    hvalue.trans hrounded⟩

end CampusQuery.Query
