import CampusQuery.Numeric.Notation
import CampusQuery.Proofs.Numeric.Closest
import Mathlib.Data.Rat.Cast.Order
import Mathlib.Tactic.FieldSimp
import Mathlib.Tactic.Linarith
import Mathlib.Tactic.Ring

/-!
# What plain texts say

A plain text has digits, perhaps a sign before and a point among them. It says
the number of all its digits, taken down by as many places as it has behind the
point, and that is the value of the shortest decimal which it was written from.
-/

namespace CampusQuery.Numeric

/-- A rational number behind a sign. -/
def signed (negative : Bool) (q : ℚ) : ℚ := if negative then -q else q

@[simp] theorem signed_true (q : ℚ) : signed true q = -q := rfl

@[simp] theorem signed_false (q : ℚ) : signed false q = q := rfl

@[simp] theorem signed_zero (negative : Bool) : signed negative 0 = 0 := by
  cases negative <;> simp

theorem abs_signed (negative : Bool) (q : ℚ) : |signed negative q| = |q| := by
  cases negative <;> simp

theorem signed_mul (negative : Bool) (p q : ℚ) :
    signed negative p * q = signed negative (p * q) := by
  cases negative <;> simp

theorem signed_div (negative : Bool) (p q : ℚ) :
    signed negative p / q = signed negative (p / q) := by
  cases negative <;> simp [neg_div]

theorem signed_sub (negative : Bool) (p q : ℚ) :
    signed negative p - signed negative q = signed negative (p - q) := by
  cases negative
  · rfl
  · simp only [signed_true]
    ring

/-- How many digits a text has behind its point. -/
def fractionDigits (text : String) : Nat := (text.toList.dropWhile fun c => c ≠ '.').tail.length

/-- The number that all digits of a text make, read from left to right. -/
def digitNumber (text : String) : Nat := Nat.ofDigitChars 10 (text.toList.filter Char.isDigit) 0

/-- What a plain text says. -/
def plainValue (text : String) : ℚ :=
  signed (text.toList.contains '-') (digitNumber text / 10 ^ fractionDigits text)

/-! ## Digits -/

/-- Only digits. -/
def AllDigits (cs : List Char) : Prop := ∀ c ∈ cs, c.isDigit = true

namespace AllDigits

variable {cs ds : List Char}

theorem append (hcs : AllDigits cs) (hds : AllDigits ds) : AllDigits (cs ++ ds) := by
  intro c hc
  rcases List.mem_append.1 hc with hc | hc
  · exact hcs c hc
  · exact hds c hc

theorem of_append (hall : AllDigits (cs ++ ds)) : AllDigits cs ∧ AllDigits ds :=
  ⟨fun c hc => hall c (List.mem_append_left ds hc), fun c hc => hall c (List.mem_append_right cs hc)⟩

theorem zeros (count : Nat) : AllDigits (List.replicate count '0') := by
  intro c hc
  rw [List.eq_of_mem_replicate hc]
  decide

theorem ne_of_mem (hcs : AllDigits cs) {c other : Char} (hother : other.isDigit = false)
    (hc : c ∈ cs) : c ≠ other := by
  rintro rfl
  exact Bool.noConfusion (hother.symm.trans (hcs c hc))

theorem filter_eq (hcs : AllDigits cs) : cs.filter Char.isDigit = cs := List.filter_eq_self.2 hcs

theorem not_minus (hcs : AllDigits cs) : '-' ∉ cs :=
  fun hc => hcs.ne_of_mem (by decide) hc rfl

/-- Looking for a point skips the digits before it. -/
theorem dropWhile_append (hcs : AllDigits cs) (rest : List Char) :
    (cs ++ rest).dropWhile (fun c => c ≠ '.') = rest.dropWhile fun c => c ≠ '.' := by
  refine List.dropWhile_append_of_pos fun c hc => ?_
  simpa using hcs.ne_of_mem (by decide) hc

end AllDigits

namespace ShortDecimal

/-- The value of a decimal. -/
def value (d : ShortDecimal) : ℚ := d.digits * 10 ^ d.exponent

theorem value_nonneg (d : ShortDecimal) : 0 ≤ d.value :=
  mul_nonneg (Nat.cast_nonneg _) (zpow_nonneg (by norm_num) _)

/-- How many places a decimal needs. -/
def places (d : ShortDecimal) : Nat := (-d.exponent).toNat

theorem toList_text (d : ShortDecimal) : d.text.toList = Nat.toDigits 10 d.digits := by
  rw [text, Nat.toString_eq_repr, Nat.toList_repr]

theorem allDigits_text (d : ShortDecimal) : AllDigits d.text.toList := by
  intro c hc
  rw [toList_text] at hc
  exact Nat.isDigit_of_mem_toDigits (by decide) (by decide) hc

theorem ofDigitChars_text (d : ShortDecimal) : Nat.ofDigitChars 10 d.text.toList 0 = d.digits := by
  rw [toList_text]
  exact Nat.ofDigitChars_toDigits (by decide) (by decide)

theorem value_of_whole {d : ShortDecimal} (hwhole : 0 ≤ d.exponent) :
    d.value = (d.digits * 10 ^ d.exponent.toNat : Nat) := by
  obtain ⟨e, he⟩ := Int.eq_ofNat_of_zero_le hwhole
  rw [value, he, Int.toNat_natCast, zpow_natCast]
  push_cast
  rfl

theorem value_of_fraction {d : ShortDecimal} (hfraction : ¬ 0 ≤ d.exponent) :
    d.value = d.digits / 10 ^ d.places := by
  have hneg : d.exponent = -(d.places : Int) := by
    unfold places
    omega
  rw [value, hneg, zpow_neg, zpow_natCast, div_eq_mul_inv]

/-- The positional text is digits alone, or digits around a point with as many behind it as the
decimal has places. Zeros are filled in only so that there is a digit before the point. -/
theorem positional_cases (d : ShortDecimal) :
    (0 ≤ d.exponent ∧ d.positional.toList = d.text.toList ++ List.replicate d.exponent.toNat '0') ∨
      (¬ 0 ≤ d.exponent ∧ ∃ front back,
        List.replicate (d.places + 1 - d.text.toList.length) '0' ++ d.text.toList = front ++ back ∧
          back.length = d.places ∧ d.positional.toList = front ++ '.' :: back) := by
  unfold positional
  by_cases hwhole : 0 ≤ d.exponent
  · rw [if_pos hwhole]
    exact .inl ⟨hwhole, by rw [String.toList_append, String.toList_ofList]⟩
  · rw [if_neg hwhole]
    refine .inr ⟨hwhole, _, _, (List.take_append_drop _ _).symm, ?_, String.toList_ofList⟩
    -- the padding leaves more digits than places
    simp only [places, List.length_drop, List.length_append, List.length_replicate]
    omega

/-- What is written is the decimal's value, with its places, and without a sign. -/
theorem plain_positional (d : ShortDecimal) :
    '-' ∉ d.positional.toList ∧ fractionDigits d.positional = d.places ∧
      (digitNumber d.positional : ℚ) / 10 ^ fractionDigits d.positional = d.value := by
  have hdigits := d.allDigits_text
  rcases d.positional_cases with
    ⟨hwhole, htext⟩ | ⟨hfraction, front, back, hsplit, hback, htext⟩
  · have hall := hdigits.append (AllDigits.zeros d.exponent.toNat)
    have hplaces : d.places = 0 := by
      unfold places
      omega
    have hnone : fractionDigits d.positional = 0 := by
      have hdrop := hall.dropWhile_append []
      rw [List.append_nil] at hdrop
      rw [fractionDigits, htext, hdrop]
      rfl
    refine ⟨htext ▸ hall.not_minus, hnone.trans hplaces.symm, ?_⟩
    rw [hnone, pow_zero, div_one, digitNumber, htext, hall.filter_eq, Nat.ofDigitChars_append,
      ofDigitChars_text, Nat.ofDigitChars_replicate_zero, Nat.mul_comm, value_of_whole hwhole]
  · have hall : AllDigits (front ++ back) := hsplit ▸ (AllDigits.zeros _).append hdigits
    obtain ⟨hfront, hbehind⟩ := hall.of_append
    have hcount : fractionDigits d.positional = d.places := by
      rw [fractionDigits, htext, hfront.dropWhile_append, ← hback]
      rfl
    refine ⟨?_, hcount, ?_⟩
    · rw [htext, List.mem_append, List.mem_cons]
      rintro (hc | hc | hc)
      · exact hfront.not_minus hc
      · exact absurd hc (by decide)
      · exact hbehind.not_minus hc
    · have hfilter : (front ++ '.' :: back).filter Char.isDigit = front ++ back := by
        rw [List.filter_append, List.filter_cons_of_neg (by decide), hfront.filter_eq,
          hbehind.filter_eq]
      rw [hcount, digitNumber, htext, hfilter, ← hsplit, Nat.ofDigitChars_append,
        Nat.ofDigitChars_replicate_zero, Nat.mul_zero, ofDigitChars_text,
        value_of_fraction hfraction]

/-! ## Sizes -/

theorem value_le_of_scale {quarters count : Nat} {exponent : Int}
    (hle : count * (scale quarters exponent).denominator ≤ (scale quarters exponent).numerator) :
    (⟨count, exponent⟩ : ShortDecimal).value * quartersPerOne ≤ quarters := by
  unfold scale at hle
  split at hle
  next hwhole =>
    rw [value_of_whole hwhole, ← Nat.cast_mul, Nat.cast_le]
    rwa [← Nat.mul_assoc] at hle
  next hfraction =>
    have hpower : (0 : ℚ) < 10 ^ (-exponent).toNat := by positivity
    rw [value_of_fraction hfraction, div_mul_eq_mul_div, places, div_le_iff₀ hpower]
    exact_mod_cast hle

theorem value_le_of_readsBack {magnitude count : Nat} {exponent : Int}
    (hreads : readsBack magnitude exponent count = true) :
    (⟨count, exponent⟩ : ShortDecimal).value * quartersPerOne ≤ upperEnd magnitude := by
  refine value_le_of_scale ?_
  unfold readsBack at hreads
  dsimp only at hreads
  split at hreads
  · exact (of_decide_eq_true hreads).2
  · exact (of_decide_eq_true hreads).2.le

theorem readsBack_of_onGrid? {tie : Tie} {magnitude count : Nat} {exponent : Int}
    (hcount : onGrid? tie magnitude exponent = some count) :
    readsBack magnitude exponent count = true := by
  unfold onGrid? at hcount
  dsimp only at hcount
  split at hcount
  next hbelow habove =>
    -- either neighbour may be the closer one
    cases hcount
    rcases roundDiv_cases tie (scale (4 * Binary64.units magnitude) exponent).numerator
      (scale (4 * Binary64.units magnitude) exponent).denominator with ⟨hsame, -⟩ | ⟨hnext, -⟩
    · rwa [hsame]
    · rwa [hnext]
  next hbelow _ =>
    cases hcount
    exact hbelow
  next _ habove =>
    cases hcount
    exact habove
  next => exact nomatch hcount

/-- A shortest decimal reads back as its magnitude unless no grid has a point for it. -/
theorem readsBack_or_none (tie : Tie) (magnitude : Nat) :
    readsBack magnitude (ofMagnitude tie magnitude).exponent
        (ofMagnitude tie magnitude).digits = true ∨
      ofMagnitude tie magnitude = ⟨0, 0⟩ ∧
        ∀ step < 20, onGrid? tie magnitude (coarsest magnitude - (step : Nat)) = none := by
  unfold ofMagnitude
  dsimp only
  generalize hfound : List.findSome? _ _ = found
  cases found with
  | none =>
      refine .inr ⟨rfl, fun step hstep => ?_⟩
      exact Option.map_eq_none_iff.1 (List.findSome?_eq_none_iff.1 hfound _
        (List.mem_map_of_mem (List.mem_range.2 hstep)))
  | some d =>
      obtain ⟨exponent, -, hgrid⟩ := List.exists_of_findSome?_eq_some hfound
      obtain ⟨count, hcount, rfl⟩ := Option.map_eq_some_iff.1 hgrid
      exact .inl (readsBack_of_onGrid? hcount)

/-- The shortest decimal is not beyond the numbers that round to the magnitude. -/
theorem value_ofMagnitude_le (tie : Tie) (magnitude : Nat) :
    (ofMagnitude tie magnitude).value * quartersPerOne ≤ upperEnd magnitude := by
  rcases readsBack_or_none tie magnitude with hreads | ⟨hzero, -⟩
  · exact value_le_of_readsBack hreads
  · rw [hzero, value, Nat.cast_zero, zero_mul, zero_mul]
    positivity

end ShortDecimal

namespace Binary64

/-- The shortest decimal of a magnitude, which plain texts show. -/
def shortOf (magnitude : Nat) : ShortDecimal :=
  if magnitude = 0 then ⟨0, 0⟩ else ShortDecimal.ofMagnitude .up magnitude

/-- The decimal that a number's plain text says. -/
def decimal (x : Binary64) : ℚ := plainValue x.plain

theorem plain_finite (negative : Bool) (m : Fin infinityMagnitude) :
    (finite negative m).plain =
      if negative then "-" ++ (shortOf m).positional else (shortOf m).positional := by
  unfold plain shortOf
  by_cases hzero : m.val = 0
  · simp only [hzero, if_true]
    rfl
  · simp only [if_neg hzero]

theorem plainValue_finite (negative : Bool) (m : Fin infinityMagnitude) :
    fractionDigits (finite negative m).plain = (shortOf m).places ∧
      (finite negative m).decimal = signed negative (shortOf m).value := by
  obtain ⟨hsign, hplaces, hvalue⟩ := (shortOf m).plain_positional
  unfold decimal
  rw [plain_finite]
  cases negative with
  | false =>
      refine ⟨hplaces, ?_⟩
      have hcontains : (shortOf m).positional.toList.contains '-' = false := by simpa using hsign
      rw [if_neg Bool.false_ne_true, plainValue, hvalue, hcontains]
  | true =>
      -- a sign in front is no digit and comes before the point
      have htext : ("-" ++ (shortOf m).positional).toList = '-' :: (shortOf m).positional.toList :=
        String.toList_append
      have hfraction : fractionDigits ("-" ++ (shortOf m).positional) =
          fractionDigits (shortOf m).positional := by
        rw [fractionDigits, htext, List.dropWhile_cons_of_pos (by decide)]
        rfl
      have hdigits : digitNumber ("-" ++ (shortOf m).positional) =
          digitNumber (shortOf m).positional := by
        rw [digitNumber, htext, List.filter_cons_of_neg (by decide)]
        rfl
      rw [if_pos rfl, hfraction, plainValue, hfraction, hdigits, hvalue, htext]
      exact ⟨hplaces, rfl⟩

theorem fractionDigits_plain (negative : Bool) (m : Fin infinityMagnitude) :
    fractionDigits (finite negative m).plain = (shortOf m).places :=
  (plainValue_finite negative m).1

theorem decimal_finite (negative : Bool) (m : Fin infinityMagnitude) :
    (finite negative m).decimal = signed negative (shortOf m).value :=
  (plainValue_finite negative m).2

theorem gap_le_units (m : Nat) : gap m ≤ units m + 1 := by
  unfold gap units
  split
  next hzero =>
    rw [hzero]
    exact Nat.le_add_left 1 _
  next =>
    have hcount : 1 ≤ fractionCount + fraction m := by
      have hpos : 0 < fractionCount := by decide
      omega
    exact (Nat.le_mul_of_pos_left _ hcount).trans (Nat.le_succ _)

/-- What a number's text says is at most twice as large as the number. -/
theorem abs_decimal_le {x : Binary64} {bound : Nat} (hbound : 0 < bound)
    (hx : x.valueUnits.natAbs ≤ bound * unitsPerOne) (hfinite : x.isFinite = true) :
    |x.decimal| ≤ 2 * bound := by
  cases x with
  | infinite negative => exact nomatch hfinite
  | nan => exact nomatch hfinite
  | finite negative m =>
      have hunits : units m ≤ bound * unitsPerOne := by
        rwa [valueUnits, natAbs_signedUnits] at hx
      rw [decimal_finite, abs_signed, abs_of_nonneg (shortOf m).value_nonneg]
      unfold shortOf
      split
      · rw [ShortDecimal.value, Nat.cast_zero, zero_mul]
        positivity
      · have hgap := gap_le_units m
        have hone : 1 * 1 ≤ bound * unitsPerOne := Nat.mul_le_mul hbound unitsPerOne_pos
        have hend : ShortDecimal.upperEnd m ≤ 2 * bound * ShortDecimal.quartersPerOne := by
          unfold ShortDecimal.upperEnd ShortDecimal.quartersPerOne
          have hproduct : 2 * bound * (4 * unitsPerOne) = 8 * (bound * unitsPerOne) := by ring
          omega
        have hquarters : (0 : ℚ) < ShortDecimal.quartersPerOne :=
          Nat.cast_pos.2 (Nat.mul_pos (by decide) unitsPerOne_pos)
        have hvalue := ShortDecimal.value_ofMagnitude_le .up m
        refine le_of_mul_le_mul_right (hvalue.trans ?_) hquarters
        exact_mod_cast hend

end Binary64

end CampusQuery.Numeric
