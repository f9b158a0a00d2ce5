import CampusQuery.Proofs.Json.Lists
import CampusQuery.Proofs.Numeric.ShortestDecimals

/-!
# Plain texts as JSON numbers

A plain text of a finite number is digits, perhaps a point among them and a sign
before, without a zero that JSON would not allow in front. So it is a JSON number,
and the number read from it is the one that it was written for.
-/

namespace CampusQuery

open Numeric

/-! ## Digits in front -/

theorem head?_toDigits_ne_zero {n : Nat} (hn : n ≠ 0) :
    (Nat.toDigits 10 n).head? ≠ some '0' := by
  induction n using Nat.strong_induction_on with
  | _ n ih =>
    rcases Nat.lt_or_ge n 10 with hsmall | hlarge
    · rw [Nat.toDigits_of_lt_base hsmall]
      simpa using hn
    · rw [Nat.toDigits_of_base_le (by decide) hlarge,
        List.head?_append_of_ne_nil _ Nat.toDigits_ne_nil]
      exact ih (n / 10) (Nat.div_lt_self (by omega) (by decide)) (by omega)

namespace Json.Reader

variable {whole places rest : List Char}

/-- What JSON allows before a point: digits, and a zero in front only alone. -/
structure WholePart (digits : List Char) : Prop where
  allDigits : AllDigits digits
  ne_nil : digits ≠ []
  zero_alone : digits.head? = some '0' → digits.length = 1

theorem digits_append (hdigits : AllDigits whole) (hrest : ∀ c ∈ rest.head?, c.isDigit = false) :
    digits (whole ++ rest) = (whole, rest) := by
  have htake : rest.takeWhile Char.isDigit = [] := by
    cases rest with
    | nil => rfl
    | cons c rest => exact List.takeWhile_cons_of_neg (by simp [hrest c rfl])
  have hdrop : rest.dropWhile Char.isDigit = rest := by
    cases rest with
    | nil => rfl
    | cons c rest => exact List.dropWhile_cons_of_neg (by simp [hrest c rfl])
  rw [digits, List.span_eq_takeWhile_dropWhile, List.takeWhile_append_of_pos hdigits, htake,
    List.dropWhile_append_of_pos hdigits, hdrop, List.append_nil]

theorem digits_all (hdigits : AllDigits whole) : digits whole = (whole, []) := by
  have happend := @digits_append whole [] hdigits (by simp)
  rwa [List.append_nil] at happend

theorem decimalValue_eq (cs : List Char) : Text.decimalValue cs = Nat.ofDigitChars 10 cs 0 := by
  rw [Text.decimalValue, Nat.ofDigitChars_eq_foldl]
  simp only [Nat.mul_comm]

/-- The sign of a number, as it is written. -/
def sign (negative : Bool) : List Char := if negative then ['-'] else []

/-- A number is read part by part: its sign, its digits, and what the readers of a fraction and of an
exponent find. -/
theorem number_parts {negative : Bool} {behind afterPlaces : List Char} {power : Option Int}
    (hwhole : WholePart whole) (hrest : ∀ c ∈ rest.head?, c.isDigit = false)
    (hplaces : fractionDigits rest = some (places, afterPlaces))
    (hpower : exponent afterPlaces = some (power, behind)) (value : JsonNumber)
    (hvalue : (if places.isEmpty ∧ power.isNone
        then integerOf negative (Text.decimalValue whole)
        else .float (.ofScientific negative (Text.decimalValue (whole ++ places))
          (power.getD 0 - places.length))) = value)
    (hfinite : value.toBinary64.isFinite = true) :
    number .kept (sign negative ++ (whole ++ rest)) = some (value, behind) := by
  have hdigits := digits_append hwhole.allDigits hrest
  have hlead : ¬ (whole.isEmpty || (whole.head? = some '0' && 1 < whole.length)) = true := by
    have hzero := hwhole.zero_alone
    simp only [Bool.or_eq_true, List.isEmpty_iff, Bool.and_eq_true, decide_eq_true_eq, not_or,
      not_and, not_lt]
    exact ⟨hwhole.ne_nil, fun hhead => (hzero hhead).le⟩
  obtain ⟨c, cs, rfl⟩ := List.exists_cons_of_ne_nil hwhole.ne_nil
  have hminus : c ≠ '-' := hwhole.allDigits.ne_of_mem (by decide) List.mem_cons_self
  unfold number
  split
  next found input hsplit =>
    have hparts : found = negative ∧ input = c :: cs ++ rest := by
      cases negative with
      | true =>
          cases hsplit
          exact ⟨rfl, rfl⟩
      | false =>
          rw [sign, if_neg Bool.false_ne_true, List.nil_append, List.cons_append] at hsplit
          split at hsplit
          next hhead => exact absurd (List.cons.inj hhead).1 hminus
          next =>
            cases hsplit
            exact ⟨rfl, rfl⟩
    obtain ⟨rfl, rfl⟩ := hparts
    simp only [hdigits, if_neg hlead, hplaces, hpower, Option.bind_eq_bind, Option.bind_some,
      hvalue, hfinite]
    rfl

theorem number_whole {negative : Bool} (hwhole : WholePart whole)
    (hfinite : (integerOf negative (Text.decimalValue whole)).toBinary64.isFinite = true) :
    number .kept (sign negative ++ whole) =
      some (integerOf negative (Text.decimalValue whole), []) := by
  have hparts :=
    @number_parts whole [] [] negative [] [] none hwhole (by simp) rfl rfl _ rfl hfinite
  rwa [List.append_nil] at hparts

theorem number_fraction {negative : Bool} (hwhole : WholePart whole) (hplaces : AllDigits places)
    (hsome : places ≠ [])
    (hfinite : (Binary64.ofScientific negative (Text.decimalValue (whole ++ places))
      (-(places.length : Int))).isFinite = true) :
    number .kept (sign negative ++ (whole ++ '.' :: places)) =
      some (.float (.ofScientific negative (Text.decimalValue (whole ++ places))
        (-(places.length : Int))), []) := by
  have hread : fractionDigits ('.' :: places) = some (places, []) := by
    rw [fractionDigits, digits_all hplaces]
    simp [hsome]
  have hvalue : (if places.isEmpty ∧ (none : Option Int).isNone
      then integerOf negative (Text.decimalValue whole)
      else .float (.ofScientific negative (Text.decimalValue (whole ++ places))
        ((none : Option Int).getD 0 - places.length))) =
      JsonNumber.float (.ofScientific negative (Text.decimalValue (whole ++ places))
        (-(places.length : Int))) := by
    simp [hsome]
  exact number_parts hwhole (by simp) hread rfl _ hvalue hfinite

/-! ## Values -/

/-- An integer is rounded once, kept as an integer or not. -/
theorem toBinary64_integerOf (negative : Bool) (value : Nat) :
    (integerOf negative value).toBinary64 =
      .nearest negative (value * Binary64.unitsPerOne) 1 := by
  have hfloat := Binary64.ofScientific_eq_nearest negative ⟨value, 0⟩
  rw [ShortDecimal.denominator_of_whole (Int.le_refl 0), ShortDecimal.numerator, Int.toNat_zero,
    Nat.pow_zero, Nat.mul_one] at hfloat
  unfold integerOf
  cases negative with
  | true =>
      rw [if_pos rfl]
      split
      next hsmall =>
        have hneg : decide (-(value : Int) < 0) = true := decide_eq_true (by omega)
        rw [JsonNumber.toBinary64, Binary64.ofInt, hneg, Int.natAbs_neg, Int.natAbs_natCast]
      next => exact hfloat
  | false =>
      rw [if_neg Bool.false_ne_true]
      split
      next =>
        have hnonneg : decide ((value : Int) < 0) = false := decide_eq_false (by omega)
        rw [JsonNumber.toBinary64, Binary64.ofInt, hnonneg, Int.natAbs_natCast]
      next => exact hfloat

theorem wholePart_text {d : ShortDecimal} (hdigits : d.digits ≠ 0) (count : Nat) :
    WholePart (d.text.toList ++ List.replicate count '0') where
  allDigits := d.allDigits_text.append (.zeros count)
  ne_nil hnil := by
    rw [ShortDecimal.toList_text] at hnil
    exact Nat.toDigits_ne_nil (List.append_eq_nil_iff.1 hnil).1
  zero_alone hhead := by
    rw [ShortDecimal.toList_text, List.head?_append_of_ne_nil _ Nat.toDigits_ne_nil] at hhead
    exact absurd hhead (head?_toDigits_ne_zero hdigits)

theorem wholePart_zero : WholePart ['0'] :=
  ⟨.zeros 1, List.cons_ne_nil _ _, fun _ => rfl⟩

/-- Before a point stands a digit of the decimal, or one zero that is filled in. -/
theorem wholePart_front {d : ShortDecimal} {front back : List Char} (hdigits : d.digits ≠ 0)
    (hsplit : List.replicate (d.places + 1 - d.text.toList.length) '0' ++ d.text.toList =
      front ++ back) (hback : back.length = d.places) : WholePart front := by
  have hall : AllDigits (front ++ back) := hsplit ▸ (AllDigits.zeros _).append d.allDigits_text
  have hlength := congrArg List.length hsplit
  simp only [List.length_append, List.length_replicate, hback] at hlength
  have hsome : front ≠ [] := by
    rintro rfl
    rw [List.length_nil] at hlength
    omega
  refine ⟨hall.of_append.1, hsome, fun hhead => ?_⟩
  by_contra hmore
  -- nothing is filled in before several digits
  have hfilled : d.places + 1 - d.text.toList.length = 0 := by omega
  rw [hfilled, List.replicate_zero, List.nil_append, ShortDecimal.toList_text] at hsplit
  have hfirst := head?_toDigits_ne_zero hdigits
  rw [hsplit, List.head?_append_of_ne_nil _ hsome] at hfirst
  exact hfirst hhead

/-- A decimal is read as the number nearest to it. -/
theorem exists_number_positional {negative : Bool} {d : ShortDecimal}
    (hzero : d.digits = 0 → d.exponent = 0)
    (hfinite : (Binary64.nearest negative d.numerator d.denominator).isFinite = true) :
    ∃ n, number .kept (sign negative ++ d.positional.toList) = some (n, []) ∧
      n.toBinary64 = .nearest negative d.numerator d.denominator := by
  rcases d.positional_cases with ⟨hwhole, htext⟩ | ⟨hfraction, front, back, hsplit, hback, htext⟩
  · have hvalue : Text.decimalValue d.positional.toList = d.digits * 10 ^ d.exponent.toNat := by
      rw [decimalValue_eq, htext, Nat.ofDigitChars_append, d.ofDigitChars_text,
        Nat.ofDigitChars_replicate_zero, Nat.mul_comm]
    have hread : (integerOf negative (Text.decimalValue d.positional.toList)).toBinary64 =
        .nearest negative d.numerator d.denominator := by
      rw [toBinary64_integerOf, hvalue, ShortDecimal.denominator_of_whole hwhole]
      rfl
    refine ⟨_, number_whole ?_ (hread ▸ hfinite), hread⟩
    rw [htext]
    by_cases hdigits : d.digits = 0
    · rw [hzero hdigits, ShortDecimal.toList_text, hdigits]
      exact wholePart_zero
    · exact wholePart_text hdigits _
  · have hvalue : Text.decimalValue (front ++ back) = d.digits := by
      rw [decimalValue_eq, ← hsplit, Nat.ofDigitChars_append, Nat.ofDigitChars_replicate_zero,
        Nat.mul_zero, d.ofDigitChars_text]
    have hexponent : -(back.length : Int) = d.exponent := by
      rw [hback]
      unfold ShortDecimal.places
      omega
    have hread := Binary64.ofScientific_eq_nearest negative d
    rw [← hvalue, ← hexponent] at hread
    have hdigits : d.digits ≠ 0 := fun hnone => hfraction (hzero hnone).ge
    have hall : AllDigits (front ++ back) := hsplit ▸ (AllDigits.zeros _).append d.allDigits_text
    have hsome : back ≠ [] := by
      rintro rfl
      exact hfraction hexponent.le
    have hfront := wholePart_front hdigits hsplit hback
    rw [htext]
    exact ⟨_, number_fraction hfront hall.of_append.2 hsome (hread ▸ hfinite), hread⟩

/-! ## Numbers as values -/

section Whole

variable {care : Care} {input : List Char} {n : JsonNumber}
  (hnumber : number care input = some (n, rest))

include hnumber

/-- A number begins with a digit or a sign. -/
theorem exists_head_of_number :
    ∃ c cs, input = c :: cs ∧
      ∀ mark : Char, mark.isDigit = false → mark ≠ '-' → c ≠ mark := by
  unfold number at hnumber
  simp only [Option.bind_eq_bind, Option.bind_eq_some_iff, Option.ite_none_left_eq_some,
    Option.some.injEq, Prod.mk.injEq] at hnumber
  obtain ⟨hlead, -⟩ := hnumber
  cases input with
  | nil => exact absurd rfl hlead
  | cons c cs =>
      refine ⟨c, cs, rfl, ?_⟩
      rintro mark hdigit hminus rfl
      split at hlead
      next hhead => exact hminus (List.cons.inj hhead).1
      next => simp [digits, List.span_eq_takeWhile_dropWhile, hdigit] at hlead

theorem skipBlanks_of_number : skipBlanks input = input := by
  obtain ⟨c, cs, rfl, hne⟩ := exists_head_of_number hnumber
  have hblank : isBlank c = false := by
    simp [isBlank, hne ' ' (by decide) (by decide), hne '\t' (by decide) (by decide),
      hne '\n' (by decide) (by decide), hne '\r' (by decide) (by decide)]
  exact List.dropWhile_cons_of_neg (by simp [hblank])

theorem scalar_of_number : scalar care input = some (.number n, rest) := by
  obtain ⟨c, cs, rfl, hne⟩ := exists_head_of_number hnumber
  unfold scalar
  split
  next hhead => exact absurd (List.cons.inj hhead).1 (hne 'n' (by decide) (by decide))
  next hhead => exact absurd (List.cons.inj hhead).1 (hne 't' (by decide) (by decide))
  next hhead => exact absurd (List.cons.inj hhead).1 (hne 'f' (by decide) (by decide))
  next hhead => exact absurd (List.cons.inj hhead).1 (hne '"' (by decide) (by decide))
  next => rw [hnumber, Option.map_some]

theorem value_of_number (fuel depth : Nat) :
    value care fuel depth input = some (.number n, rest) := by
  obtain ⟨c, cs, rfl, hne⟩ := exists_head_of_number hnumber
  have harray := hne '[' (by decide) (by decide)
  have hobject := hne '\x7b' (by decide) (by decide)
  unfold value
  cases depth with
  | zero =>
      dsimp only
      split
      next hhead => exact absurd (List.cons.inj hhead).1 harray
      next hhead => exact absurd (List.cons.inj hhead).1 hobject
      next => exact scalar_of_number hnumber
  | succ depth =>
      dsimp only
      split
      next hhead => exact absurd (List.cons.inj hhead).1 harray
      next hhead => exact absurd (List.cons.inj hhead).1 hobject
      next => exact scalar_of_number hnumber

end Whole

end Json.Reader

/-! ## Reading back -/

/-- The plain text of a finite number is a JSON number, and the number that is read from it is the
same number. -/
theorem Json.read?_plain {x : Binary64} (hfinite : x.isFinite = true) :
    ∃ n, Json.read? x.plain = some (.number n) ∧ n.toBinary64 = x := by
  obtain ⟨negative, m, rfl⟩ := Binary64.isFinite_iff.1 hfinite
  have hnearest := Binary64.nearest_shortOf negative m
  obtain ⟨n, hnumber, hvalue⟩ := @Reader.exists_number_positional negative (Binary64.shortOf m)
    Binary64.exponent_shortOf_of_digits_eq_zero (hnearest ▸ hfinite)
  refine ⟨n, Reader.whole_eq_some_iff.2 ⟨[], ?_, rfl⟩, hvalue.trans hnearest⟩
  have htext : (Binary64.finite negative m).plain.toList =
      Reader.sign negative ++ (Binary64.shortOf m).positional.toList := by
    rw [Binary64.plain_finite]
    cases negative with
    | true => exact String.toList_append
    | false => rfl
  rw [htext, Reader.skipBlanks_of_number hnumber]
  exact Reader.value_of_number hnumber _ _

end CampusQuery
