import CampusQuery.Numeric.Rounding

/-!
# Binary64 numbers

A finite number keeps its sign beside its magnitude, the 63 low bits of its
word, so `-0` and `0` are two numbers of equal value. Magnitudes order as their
values do, and each finite value is a whole number of units of `2 ^ -1074`.
-/

namespace CampusQuery.Numeric

/-- How many magnitudes share an exponent field: those of 52 fraction bits. -/
def fractionCount : Nat := Nat.pow 2 52

/-- The least magnitude that is not finite: exponent field `2047`, fraction `0`. -/
def infinityMagnitude : Nat := 2047 * fractionCount

/-- A binary64 number; all NaN words are one. -/
inductive Binary64 where
  | finite (negative : Bool) (magnitude : Fin infinityMagnitude)
  | infinite (negative : Bool)
  | nan
deriving DecidableEq, Repr

namespace Binary64

/-- The biased exponent field of a magnitude. -/
def exponentField (magnitude : Nat) : Nat := magnitude / fractionCount

/-- The 52 fraction bits of a magnitude. -/
def fraction (magnitude : Nat) : Nat := magnitude % fractionCount

/-- The distance to the next magnitude, in units of `2 ^ -1074`. -/
def gap (magnitude : Nat) : Nat := Nat.pow 2 (exponentField magnitude - 1)

/-- The value of a magnitude in units of `2 ^ -1074`. -/
def units (magnitude : Nat) : Nat :=
  if exponentField magnitude = 0 then fraction magnitude
  else (fractionCount + fraction magnitude) * gap magnitude

/-- How many units of `2 ^ -1074` make one. -/
def unitsPerOne : Nat := Nat.pow 2 1074

/-- The number nearest to `num / den` units, ties to the even magnitude. The shift is the
exponent of the unit in the last place, so shift and rounded significand add up to the word. -/
def nearest (negative : Bool) (num den : Nat) : Binary64 :=
  let shift := Nat.log2 (num / den) - 52
  let magnitude := shift * fractionCount + roundDiv .toEven num (den * Nat.pow 2 shift)
  if h : magnitude < infinityMagnitude then .finite negative ⟨magnitude, h⟩
  else .infinite negative

/-- The zero of a sign. -/
def signedZero (negative : Bool) : Binary64 := .finite negative ⟨0, by decide⟩

instance : Zero Binary64 := ⟨signedZero false⟩

instance : Inhabited Binary64 := ⟨0⟩

/-- The number nearest to a natural number. -/
def ofNat (n : Nat) : Binary64 := nearest false (n * unitsPerOne) 1

def ofInt (n : Int) : Binary64 := nearest (n < 0) (n.natAbs * unitsPerOne) 1

/-- The number nearest to `digits * 10 ^ exponent`. Exponents that no digits can bring back
into range are settled by size alone. -/
def ofScientific (negative : Bool) (digits : Nat) (exponent : Int) : Binary64 :=
  let size := (Nat.toDigits 10 digits).length + exponent
  if digits = 0 ∨ size < -400 then signedZero negative
  else if 400 < size then .infinite negative
  else if 0 ≤ exponent then nearest negative (digits * Nat.pow 10 exponent.toNat * unitsPerOne) 1
  else nearest negative (digits * unitsPerOne) (Nat.pow 10 (-exponent).toNat)

/-- Neither infinite nor NaN. -/
def isFinite : Binary64 → Bool
  | .finite .. => true
  | _ => false

/-- Zero of either sign. -/
def isZero : Binary64 → Bool
  | .finite _ magnitude => magnitude.val = 0
  | _ => false

/-- The magnitude with its sign. Equal values have equal keys, so both zeros have key `0`. -/
def key : Binary64 → Int
  | .finite negative magnitude => if negative then -(magnitude.val : Int) else magnitude.val
  | .infinite negative => if negative then -(infinityMagnitude : Int) else infinityMagnitude
  | .nan => 0

/-- Numeric order; a NaN compares with nothing. -/
def compare? : Binary64 → Binary64 → Option Ordering
  | .nan, _ => none
  | _, .nan => none
  | a, b => some (compare a.key b.key)

/-- Numerically less. -/
def lt (a b : Binary64) : Bool := a.compare? b == some .lt

/-- Numerically equal: the two zeros are, a NaN is not even equal to itself. -/
def numEq (a b : Binary64) : Bool := a.compare? b == some .eq

/-- The number with `-0` replaced by `0`; equal values become equal numbers. -/
def normalizeZero (a : Binary64) : Binary64 := if a.isZero then 0 else a

/-- The greater of two numbers, the other one if one is NaN, the first if they are equal. -/
def max (a b : Binary64) : Binary64 :=
  match a.compare? b with
  | some .lt => b
  | some _ => a
  | none => if a = .nan then b else a

/-- The smaller of two numbers, the other one if one is NaN, the first if they are equal. -/
def min (a b : Binary64) : Binary64 :=
  match a.compare? b with
  | some .gt => b
  | some _ => a
  | none => if a = .nan then b else a

end Binary64

end CampusQuery.Numeric
