import CampusQuery.Json.Printer
import CampusQuery.Record.Decoding
import Mathlib.Data.List.Basic

/-!
# The characters of numbers

JSON texts of finite numbers consist of digits, points, signs and the letter of
the exponent, so none of them reads `null`.
-/

namespace CampusQuery.Numeric

/-- The characters that numbers are written with. -/
def isNumeral (c : Char) : Bool := c.isDigit || ['.', '-', '+', 'e'].contains c

/-- A text of such characters. -/
def IsNumeralText (text : String) : Prop := ∀ c ∈ text.toList, isNumeral c = true

namespace IsNumeralText

theorem of_all {text : String} (hall : text.toList.all isNumeral = true) : IsNumeralText text :=
  List.all_eq_true.1 hall

theorem append {first second : String} (hfirst : IsNumeralText first)
    (hsecond : IsNumeralText second) : IsNumeralText (first ++ second) := by
  intro c hc
  rw [String.toList_append, List.mem_append] at hc
  rcases hc with hc | hc
  · exact hfirst c hc
  · exact hsecond c hc

theorem ne_null {text : String} (htext : IsNumeralText text) : text ≠ "null" := by
  rintro rfl
  exact absurd (htext 'n' (by decide)) (by decide)

end IsNumeralText

theorem isNumeral_of_mem_toString {n : Nat} {c : Char} (hc : c ∈ (toString n).toList) :
    isNumeral c = true := by
  rw [Nat.toString_eq_repr, Nat.toList_repr] at hc
  have hdigit := Nat.isDigit_of_mem_toDigits (by decide) (by decide) hc
  rw [isNumeral, hdigit, Bool.true_or]

namespace ShortDecimal

theorem isNumeralText_positional (d : ShortDecimal) : IsNumeralText d.positional := by
  intro c hc
  unfold positional at hc
  dsimp only at hc
  split at hc
  · rw [String.toList_append, List.mem_append] at hc
    rcases hc with hc | hc
    · exact isNumeral_of_mem_toString hc
    · rw [String.toList_ofList] at hc
      rw [List.eq_of_mem_replicate hc]
      decide
  · rw [String.toList_ofList, List.mem_append, List.mem_cons] at hc
    have hpadded : ∀ count, ∀ digit ∈ List.replicate count '0' ++ d.text.toList,
        isNumeral digit = true := by
      intro count digit hdigit
      rcases List.mem_append.1 hdigit with hzero | hdigit
      · rw [List.eq_of_mem_replicate hzero]
        decide
      · exact isNumeral_of_mem_toString hdigit
    rcases hc with hc | rfl | hc
    · exact hpadded _ c (List.mem_of_mem_take hc)
    · decide
    · exact hpadded _ c (List.mem_of_mem_drop hc)

theorem isNumeralText_scientific (d : ShortDecimal) : IsNumeralText d.scientific := by
  have hdigits : ∀ digit ∈ d.text.toList, isNumeral digit = true :=
    fun digit hdigit => isNumeral_of_mem_toString hdigit
  unfold scientific
  dsimp only
  refine .append (.append ?_ ?_) fun c hc => isNumeral_of_mem_toString hc
  · -- the mantissa has the digits and a point behind the first of several
    intro c hc
    rw [String.toList_ofList] at hc
    split at hc
    next => exact absurd hc List.not_mem_nil
    next digit htext =>
      rw [htext] at hdigits
      exact hdigits c hc
    next digit rest _ htext =>
      rw [htext] at hdigits
      rcases List.mem_cons.1 hc with rfl | hc
      · exact hdigits _ List.mem_cons_self
      · rcases List.mem_cons.1 hc with rfl | hc
        · decide
        · exact hdigits c (List.mem_cons_of_mem _ hc)
  · split
    · exact .of_all rfl
    · exact .of_all rfl

end ShortDecimal

namespace Binary64

theorem isNumeralText_jsonMagnitude (magnitude : Nat) : IsNumeralText (jsonMagnitude magnitude) := by
  unfold jsonMagnitude
  dsimp only
  split
  · exact .of_all rfl
  · split
    · split
      · exact (ShortDecimal.isNumeralText_positional _).append (.of_all rfl)
      · exact ShortDecimal.isNumeralText_positional _
    · exact ShortDecimal.isNumeralText_scientific _

theorem isNumeralText_of_json? {x : Binary64} {text : String} (htext : x.json? = some text) :
    IsNumeralText text := by
  cases x with
  | finite negative magnitude =>
      cases htext
      split
      · exact IsNumeralText.append (.of_all rfl) (isNumeralText_jsonMagnitude _)
      · exact isNumeralText_jsonMagnitude _
  | infinite negative => exact nomatch htext
  | nan => exact nomatch htext

/-- A number is written as `null` exactly if it is not finite. -/
theorem numberText_float_eq_null_iff (x : Binary64) :
    Json.numberText (.float x) = "null" ↔ x.isFinite = false := by
  cases x with
  | finite negative magnitude =>
      refine iff_of_false ?_ (by simp [isFinite])
      have htext := @isNumeralText_of_json? (.finite negative magnitude) _ rfl
      exact htext.ne_null
  | infinite negative => exact iff_of_true rfl rfl
  | nan => exact iff_of_true rfl rfl

end Binary64

end CampusQuery.Numeric
