import CampusQuery.Numeric.Arithmetic
import CampusQuery.Numeric.Shortest

/-!
# Decimals of 96 bits

A sign, a coefficient below `2 ^ 96` and a scale of at most 28 places. Sums are
exact while they fit; a result that does not fit gives up places, and fails only
when no place is left to give up.
-/

namespace CampusQuery.Numeric

/-- The least natural number of more than 96 bits. -/
def coefficientBound : Nat := Nat.pow 2 96

/-- The decimal `± coefficient / 10 ^ scale`. -/
structure Decimal96 where
  negative : Bool
  coefficient : Nat
  scale : Nat
  coefficient_lt : coefficient < coefficientBound
  scale_le : scale ≤ 28
deriving DecidableEq, Repr

namespace Decimal96

instance : Zero Decimal96 := ⟨⟨false, 0, 0, by decide, by decide⟩⟩

/-- The decimal with as many places of `n / 10 ^ scale` as fit, rounding half to even. -/
def fit? (negative : Bool) (n scale : Nat) : Option Decimal96 :=
  (List.range (scale + 1)).findSome? fun dropped =>
    let coefficient := roundDiv .toEven n (Nat.pow 10 dropped)
    if h : coefficient < coefficientBound ∧ scale - dropped ≤ 28 then
      some ⟨negative, coefficient, scale - dropped, h.1, h.2⟩
    else none

/-- The decimal of a short decimal's digits; places past the 28th round half up. -/
def ofShort? (negative : Bool) (d : ShortDecimal) : Option Decimal96 :=
  if 0 ≤ d.exponent then fit? negative (d.digits * Nat.pow 10 d.exponent.toNat) 0
  else
    let places := (-d.exponent).toNat
    if places ≤ 28 then fit? negative d.digits places
    else fit? negative (roundDiv .up d.digits (Nat.pow 10 (places - 28))) 28

/-- The decimal whose text is the shortest text of the number. -/
def ofBinary64? : Binary64 → Option Decimal96
  | .finite negative magnitude =>
      if magnitude.val = 0 then some 0
      else ofShort? negative (ShortDecimal.ofMagnitude .up magnitude)
  | _ => none

/-- The value in steps of `10 ^ -places`, exact for `places` not below the scale. -/
def signedCoefficient (d : Decimal96) (places : Nat) : Int :=
  let n := d.coefficient * Nat.pow 10 (places - d.scale)
  if d.negative then -(n : Int) else n

/-- The sum at the larger scale, or at the largest that fits. A zero addend changes nothing,
not even the scale. -/
def add? (a b : Decimal96) : Option Decimal96 :=
  if a.coefficient = 0 then some b
  else if b.coefficient = 0 then some a
  else
    let places := Nat.max a.scale b.scale
    let sum := a.signedCoefficient places + b.signedCoefficient places
    fit? (sum < 0) sum.natAbs places

/-- The decimal without its trailing fractional zeros. -/
def strip (negative : Bool) (coefficient : Nat) (hlt : coefficient < coefficientBound) :
    (scale : Nat) → scale ≤ 28 → Decimal96
  | 0, hle => ⟨negative, coefficient, 0, hlt, hle⟩
  | scale + 1, hle =>
      if coefficient % 10 = 0 then
        strip negative (coefficient / 10) (Nat.lt_of_le_of_lt (Nat.div_le_self _ _) hlt)
          scale (Nat.le_of_succ_le hle)
      else ⟨negative, coefficient, scale + 1, hlt, hle⟩

/-- The quotient by a count. A whole quotient keeps the scale; any other is carried to as many
places as fit, rounded half to even, and stripped of trailing zeros. -/
def divCount? (d : Decimal96) (count : Nat) : Option Decimal96 :=
  if count = 0 then none
  else if d.coefficient = 0 then some 0
  else if d.coefficient % count = 0 then fit? d.negative (d.coefficient / count) d.scale
  else
    let extra := (List.range (28 - d.scale + 1)).reverse.find? fun extra =>
      d.coefficient * Nat.pow 10 extra / count < coefficientBound
    let extra := extra.getD 0
    let quotient := roundDiv .toEven (d.coefficient * Nat.pow 10 extra) count
    (fit? d.negative quotient (d.scale + extra)).map fun q =>
      strip q.negative q.coefficient q.coefficient_lt q.scale q.scale_le

/-- The decimal rounded to two places, a half going away from zero. Decimals that have no more
places stay as they are; zero becomes a positive zero. -/
def roundToHundredths (d : Decimal96) : Decimal96 :=
  if d.coefficient = 0 then ⟨false, 0, 2, by decide, by decide⟩
  else if d.scale ≤ 2 then d
  else
    let coefficient := roundDiv .up d.coefficient (Nat.pow 10 (d.scale - 2))
    ⟨d.negative && coefficient != 0, coefficient, 2,
      Nat.lt_of_le_of_lt (roundDiv_le _ _ (Nat.pow_pos (by decide))) d.coefficient_lt, by decide⟩

/-- The binary64 number of a decimal: whole and fractional part are converted apart and the
sum is rounded back to the decimal's places. -/
def toBinary64 (d : Decimal96) : Binary64 :=
  let power := Nat.pow 10 d.scale
  let whole := Binary64.ofNat (d.coefficient / power)
  let part := Binary64.ofNat (d.coefficient % power) / Binary64.ofNat power
  let magnitude :=
    if d.scale = 0 ∨ part.isZero then whole
    else ((whole + part) * Binary64.ofNat power).roundToInteger / Binary64.ofNat power
  if d.negative then -magnitude else magnitude

end Decimal96

end CampusQuery.Numeric
