import CampusQuery.Numeric.Binary64

/-!
# Shortest decimals

The decimal with the fewest digits that still reads back as a given binary64
magnitude. Grids of powers of ten are tried from coarse to fine; on each grid
only the two neighbours of the value can lie in the interval that rounds to it.
-/

namespace CampusQuery.Numeric

/-- The decimal `digits * 10 ^ exponent`. -/
structure ShortDecimal where
  digits : Nat
  exponent : Int
deriving DecidableEq, Repr

namespace ShortDecimal

/-- How many quarters of a unit make one. -/
def quartersPerOne : Nat := 4 * Binary64.unitsPerOne

/-- A grid point against a bound: `count * 10 ^ exponent` as a fraction whose numerator is
in quarters of a unit, so that bounds half a gap away are whole. -/
structure Scaled where
  numerator : Nat
  denominator : Nat

/-- `quarters / 4` units measured in steps of `10 ^ exponent`. -/
def scale (quarters : Nat) (exponent : Int) : Scaled :=
  if 0 ≤ exponent then ⟨quarters, Nat.pow 10 exponent.toNat * quartersPerOne⟩
  else ⟨quarters * Nat.pow 10 (-exponent).toNat, quartersPerOne⟩

/-- The lower end of the interval that rounds to a magnitude, in quarters of a unit. Below a
power of two the neighbour is only half as far. -/
def lowerEnd (magnitude : Nat) : Nat :=
  let reach :=
    if Binary64.fraction magnitude = 0 ∧ 1 < Binary64.exponentField magnitude
    then Binary64.gap magnitude else 2 * Binary64.gap magnitude
  4 * Binary64.units magnitude - reach

/-- The upper end of the interval that rounds to a magnitude, in quarters of a unit. -/
def upperEnd (magnitude : Nat) : Nat :=
  4 * Binary64.units magnitude + 2 * Binary64.gap magnitude

/-- Whether `count * 10 ^ exponent` reads back as the magnitude; the ends belong to the
interval when the magnitude is even. -/
def readsBack (magnitude : Nat) (exponent : Int) (count : Nat) : Bool :=
  let low := scale (lowerEnd magnitude) exponent
  let high := scale (upperEnd magnitude) exponent
  if magnitude % 2 = 0 then
    low.numerator ≤ count * low.denominator ∧ count * high.denominator ≤ high.numerator
  else
    low.numerator < count * low.denominator ∧ count * high.denominator < high.numerator

/-- The best point of the grid `10 ^ exponent` that reads back as the magnitude, if any. -/
def onGrid? (tie : Tie) (magnitude : Nat) (exponent : Int) : Option Nat :=
  let value := scale (4 * Binary64.units magnitude) exponent
  let below := value.numerator / value.denominator
  match readsBack magnitude exponent below, readsBack magnitude exponent (below + 1) with
  | true, true => some (roundDiv tie value.numerator value.denominator)
  | true, false => some below
  | false, true => some (below + 1)
  | false, false => none

/-- An exponent of ten above every decimal of the magnitude. -/
def coarsest (magnitude : Nat) : Int :=
  (((Nat.log2 (Binary64.units magnitude) : Int) - 1073) * 30103).fdiv 100000 + 1

/-- The shortest decimal of a magnitude that is not zero. Seventeen digits always suffice. -/
def ofMagnitude (tie : Tie) (magnitude : Nat) : ShortDecimal :=
  let grids := (List.range 20).map fun (step : Nat) => coarsest magnitude - step
  (grids.findSome? fun exponent =>
    (onGrid? tie magnitude exponent).map (⟨·, exponent⟩)).getD ⟨0, 0⟩

def text (d : ShortDecimal) : String := toString d.digits

def leadingExponent (d : ShortDecimal) : Int := (d.text.length : Int) + d.exponent - 1

/-- Positional notation, without a point when the decimal is whole. -/
def positional (d : ShortDecimal) : String :=
  if 0 ≤ d.exponent then d.text ++ String.ofList (List.replicate d.exponent.toNat '0')
  else
    let places := (-d.exponent).toNat
    let digits := d.text.toList
    let padded := List.replicate (places + 1 - digits.length) '0' ++ digits
    let whole := padded.length - places
    String.ofList (padded.take whole ++ '.' :: padded.drop whole)

/-- Scientific notation with an explicit exponent sign: `1.5e+300`. -/
def scientific (d : ShortDecimal) : String :=
  let mantissa := match d.text.toList with
    | [] => []
    | [digit] => [digit]
    | digit :: rest => digit :: '.' :: rest
  let exponent := d.leadingExponent
  String.ofList mantissa ++ (if exponent < 0 then "e-" else "e+") ++ toString exponent.natAbs

end ShortDecimal

end CampusQuery.Numeric
