import CampusQuery.Proofs.Numeric.HundredthNumbers
import CampusQuery.Proofs.Query.Aggregates
import Mathlib.Algebra.Order.BigOperators.Group.List
import Mathlib.Data.List.Induction

/-!
# Sums of numbers that fit together

Numbers of few places whose sizes add up to a decimal are summed without loss in
every order, because no running total is greater than their sizes. The rounded
sum is the same decimal value for all orders. Its number is too, except where the
sum needs one place beyond `2 ^ 45`: there it follows the places of the total.
-/

namespace CampusQuery.Query

open Numeric

/-- The sum of what the plain texts of numbers say. -/
def exactSum (numbers : List Binary64) : ℚ := (numbers.map Binary64.decimal).sum

/-- Numbers of few places whose sizes add up to a decimal. -/
structure FitTogether (places : Nat) (numbers : List Binary64) : Prop where
  places_le : places ≤ 28
  finite : ∀ n ∈ numbers, n.isFinite = true
  few_places : ∀ n ∈ numbers, fractionDigits n.plain ≤ places
  sizes_le : (numbers.map fun n => |n.decimal|).sum * 10 ^ places ≤ 2 ^ 96 - 1

section Orders

variable {places : Nat} {numbers order before after : List Binary64} {n : Binary64}

theorem exactSum_perm (hperm : order.Perm numbers) : exactSum order = exactSum numbers :=
  (hperm.map Binary64.decimal).sum_eq

theorem exactSum_append (before after : List Binary64) :
    exactSum (before ++ after) = exactSum before + exactSum after := by
  rw [exactSum, List.map_append, List.sum_append]
  rfl

theorem abs_exactSum_le (numbers : List Binary64) :
    |exactSum numbers| ≤ (numbers.map fun n => |n.decimal|).sum := by
  have hsizes := List.le_sum_of_subadditive (fun q : ℚ => |q|) abs_zero.le abs_add_le
    (numbers.map Binary64.decimal)
  rwa [List.map_map] at hsizes

namespace FitTogether

theorem perm (hfits : FitTogether places numbers) (hperm : order.Perm numbers) :
    FitTogether places order where
  places_le := hfits.places_le
  finite n hn := hfits.finite n (hperm.mem_iff.1 hn)
  few_places n hn := hfits.few_places n (hperm.mem_iff.1 hn)
  sizes_le := (hperm.map fun n => |n.decimal|).sum_eq ▸ hfits.sizes_le

theorem of_append (hfits : FitTogether places (before ++ after)) : FitTogether places before where
  places_le := hfits.places_le
  finite n hn := hfits.finite n (List.mem_append_left after hn)
  few_places n hn := hfits.few_places n (List.mem_append_left after hn)
  sizes_le := by
    refine le_trans (mul_le_mul_of_nonneg_right ?_ (by positivity)) hfits.sizes_le
    rw [List.map_append, List.sum_append]
    refine le_add_of_nonneg_right (List.sum_nonneg fun q hq => ?_)
    obtain ⟨n, -, rfl⟩ := List.mem_map.1 hq
    exact abs_nonneg _

theorem abs_exactSum_lt (hfits : FitTogether places numbers) :
    |exactSum numbers| * 10 ^ places < 2 ^ 96 := by
  have hle : |exactSum numbers| * 10 ^ places ≤ 2 ^ 96 - 1 :=
    (mul_le_mul_of_nonneg_right (abs_exactSum_le numbers) (by positivity)).trans hfits.sizes_le
  linarith

theorem abs_decimal_lt (hfits : FitTogether places numbers) (hn : n ∈ numbers) :
    |n.decimal| * 10 ^ places < 2 ^ 96 := by
  have hsize : |n.decimal| ≤ (numbers.map fun n => |n.decimal|).sum :=
    List.single_le_sum (fun q hq => by obtain ⟨m, -, rfl⟩ := List.mem_map.1 hq; exact abs_nonneg _)
      _ (List.mem_map_of_mem hn)
  have hle := (mul_le_mul_of_nonneg_right hsize (by positivity)).trans hfits.sizes_le
  linarith

end FitTogether

end Orders

namespace Total

/-- A number whose decimal fits is added without loss if the sum fits as well. -/
theorem exists_add {sum : Decimal96} {n : Binary64} {places : Nat} (hplaces : places ≤ 28)
    (hscale : sum.scale ≤ places) (hfinite : n.isFinite = true)
    (hfew : fractionDigits n.plain ≤ places) (hn : |n.decimal| * 10 ^ places < 2 ^ 96)
    (hlt : |sum.value + n.decimal| * 10 ^ places < 2 ^ 96) :
    ∃ next, (Total.exact sum).add n = .exact next ∧ next.value = sum.value + n.decimal ∧
      next.scale ≤ places := by
  obtain ⟨d, hd, hvalue, hdscale⟩ := Decimal96.exists_ofBinary64? hfinite hplaces hfew hn
  rw [← hvalue] at hlt ⊢
  rw [← hdscale] at hfew
  obtain ⟨next, hnext, hsum, hnextScale⟩ := Decimal96.exists_add? hplaces hscale hfew hlt
  refine ⟨next, ?_, hsum, ?_⟩
  · rw [add, hd, Option.bind_some, hnext]
  · rw [hnextScale]
    split
    · exact hfew
    · split
      · exact hscale
      · exact Nat.max_le.2 ⟨hscale, hfew⟩

/-- The running total of numbers that fit together is their exact sum. -/
theorem exists_ofNumbers {places : Nat} {numbers : List Binary64}
    (hfits : FitTogether places numbers) :
    ∃ sum, ofNumbers numbers = .exact sum ∧ sum.value = exactSum numbers ∧ sum.scale ≤ places := by
  induction numbers using List.reverseRecOn with
  | nil => exact ⟨0, rfl, Decimal96.value_zero, Nat.zero_le _⟩
  | append_singleton before n ih =>
      obtain ⟨sum, htotal, hvalue, hscale⟩ := ih hfits.of_append
      have hn : n ∈ before ++ [n] := by simp
      have hsum : exactSum (before ++ [n]) = sum.value + n.decimal := by
        rw [exactSum_append, hvalue]
        simp [exactSum]
      have hlt := hfits.abs_exactSum_lt
      rw [hsum] at hlt
      obtain ⟨next, hnext, hnextValue, hnextScale⟩ := exists_add hfits.places_le hscale
        (hfits.finite n hn) (hfits.few_places n hn) (hfits.abs_decimal_lt hn) hlt
      refine ⟨next, ?_, hnextValue.trans hsum.symm, hnextScale⟩
      rw [ofNumbers, List.foldl_append]
      change (ofNumbers before).add n = _
      rw [htotal, hnext]

end Total

/-- A rounded sum whose number follows from its value: small, whole, or of two places. -/
def Settled (q : ℚ) : Prop := |q| < 2 ^ 45 ∨ (∃ n : ℤ, q = n) ∨ ¬ ∃ n : ℤ, q * 10 = n

/-- Rounded decimals of equal value have one number, if the value settles it. -/
theorem toBinary64_eq_of_settled {a b : Decimal96}
    (hvalue : a.roundToHundredths.value = b.roundToHundredths.value)
    (hsettled : Settled a.roundToHundredths.value) :
    a.roundToHundredths.toBinary64 = b.roundToHundredths.toBinary64 := by
  have ha := a.scale_roundToHundredths_le
  have hb := b.scale_roundToHundredths_le
  have hnumber : ∀ d : Decimal96, ((∃ n : ℤ, d.roundToHundredths.value = n) ∨
      |d.roundToHundredths.value| < 2 ^ 45) →
        d.roundToHundredths.toBinary64 = Binary64.ofRat d.roundToHundredths.value := fun d =>
    Decimal96.toBinary64_eq_ofRat d.scale_roundToHundredths_le Decimal96.negative_roundToHundredths
  rcases hsettled with hsmall | hwhole | htenths
  · rw [hnumber a (.inr hsmall), hnumber b (.inr (hvalue ▸ hsmall)), hvalue]
  · rw [hnumber a (.inl hwhole), hnumber b (.inl (hvalue ▸ hwhole)), hvalue]
  · -- neither decimal can do with fewer than two places, so they are the same
    have hatwo : a.roundToHundredths.scale = 2 := by
      by_contra hne
      exact htenths (Decimal96.exists_tenths (by omega))
    have hbtwo : b.roundToHundredths.scale = 2 := by
      by_contra hne
      rw [hvalue] at htenths
      exact htenths (Decimal96.exists_tenths (by omega))
    have hsome : a.roundToHundredths.coefficient ≠ 0 := fun hzero => by
      rw [Decimal96.value_eq_zero_iff.2 hzero, zero_mul] at htenths
      exact htenths ⟨0, Int.cast_zero.symm⟩
    rw [Decimal96.eq_of_value_eq (hatwo.trans hbtwo.symm) hvalue fun hzero => absurd hzero hsome]

/-- Numbers that fit together have exact running totals in every order, and the decimal that SUM
converts is their sum rounded to hundredths. If that settles its number, SUM is the same for all
orders. -/
theorem sums_are_exact {places : Nat} {numbers : List Binary64}
    (hfits : FitTogether places numbers) :
    (∀ order : List Binary64, order.Perm numbers →
      (∀ before after, order = before ++ after →
        ∃ sum, (before.map Value.number).foldlM Accumulator.add (Accumulator.start .sum) =
          .ok (.sum (.exact sum)) ∧ sum.value = exactSum before) ∧
      ∃ sum, (order.map Value.number).foldlM Accumulator.add (Accumulator.start .sum) =
          .ok (.sum (.exact sum)) ∧
        (Accumulator.sum (.exact sum)).finish = .ok sum.roundToHundredths.toBinary64 ∧
        sum.roundToHundredths.value = roundHundredths (exactSum numbers)) ∧
    (Settled (roundHundredths (exactSum numbers)) → ∀ order : List Binary64, order.Perm numbers →
      aggregate .sum (order.map Value.number) = aggregate .sum (numbers.map Value.number)) := by
  have hrounded : ∀ order : List Binary64, order.Perm numbers → ∃ sum,
      Total.ofNumbers order = .exact sum ∧
        sum.roundToHundredths.value = roundHundredths (exactSum numbers) := by
    intro order hperm
    obtain ⟨sum, hsum, hvalue, -⟩ := Total.exists_ofNumbers (hfits.perm hperm)
    refine ⟨sum, hsum, ?_⟩
    rw [Decimal96.value_roundToHundredths, hvalue, exactSum_perm hperm]
  constructor
  · intro order hperm
    constructor
    · rintro before after rfl
      obtain ⟨sum, hsum, hvalue, -⟩ := Total.exists_ofNumbers (hfits.perm hperm).of_append
      exact ⟨sum, by rw [foldlM_sum, hsum], hvalue⟩
    · obtain ⟨sum, hsum, hvalue⟩ := hrounded order hperm
      exact ⟨sum, by rw [foldlM_sum, hsum], rfl, hvalue⟩
  · intro hsettled order hperm
    obtain ⟨sum, hsum, hvalue⟩ := hrounded order hperm
    obtain ⟨other, hother, hsame⟩ := hrounded numbers (.refl numbers)
    rw [← hvalue] at hsettled
    rw [aggregate_sum, aggregate_sum, hsum, hother]
    exact congrArg Except.ok (toBinary64_eq_of_settled (hvalue.trans hsame.symm) hsettled)

/-- Averages of three sections. -/
def threeAverages : List Binary64 :=
  [.ofScientific false 7107 (-2), .ofScientific false 711 (-1), .ofScientific false 98 0]

theorem fitTogether_threeAverages : FitTogether 2 threeAverages where
  places_le := by decide
  finite := by decide +kernel
  few_places := by decide +kernel
  sizes_le := by decide +kernel

theorem three_averages_sum_exactly :
    FitTogether 2 threeAverages ∧ Settled (roundHundredths (exactSum threeAverages)) ∧
      exactSum threeAverages = 24017 / 100 ∧
      (∃ sum, (threeAverages.reverse.map Value.number).foldlM Accumulator.add (.start .sum) =
          .ok (.sum (.exact sum)) ∧
        sum.roundToHundredths.value = roundHundredths (exactSum threeAverages)) ∧
      aggregate .sum (threeAverages.reverse.map Value.number) =
        aggregate .sum (threeAverages.map Value.number) := by
  have hsettled : Settled (roundHundredths (exactSum threeAverages)) := .inl (by decide +kernel)
  obtain ⟨hexact, hsame⟩ := sums_are_exact fitTogether_threeAverages
  obtain ⟨-, sum, hfold, -, hvalue⟩ := hexact _ threeAverages.reverse_perm
  exact ⟨fitTogether_threeAverages, hsettled, by decide +kernel, ⟨sum, hfold, hvalue⟩,
    hsame hsettled _ threeAverages.reverse_perm⟩

/-- A sum of one place beyond `2 ^ 45`, beside two quarters that cancel out. -/
def cancelling : List Binary64 :=
  [.ofScientific false 25 (-2), .ofScientific true 25 (-2),
    .ofScientific false 351843720888322 (-1)]

theorem order_shows_in_sum :
    FitTogether 2 cancelling ∧ roundHundredths (exactSum cancelling) = 351843720888322 / 10 ∧
      aggregate .sum (cancelling.map Value.number) =
        .ok (.ofScientific false 351843720888322 (-1)) ∧
      cancelling.reverse.Perm cancelling ∧
      aggregate .sum (cancelling.reverse.map Value.number) =
        .ok (.ofScientific false 3518437208883221 (-2)) ∧
      Binary64.ofScientific false 351843720888322 (-1) ≠
        Binary64.ofScientific false 3518437208883221 (-2) := by
  have hfits : FitTogether 2 cancelling :=
    ⟨by decide, by decide +kernel, by decide +kernel, by decide +kernel⟩
  exact ⟨hfits, by decide +kernel, by decide +kernel, cancelling.reverse_perm, by decide +kernel,
    by decide +kernel⟩

end CampusQuery.Query
