import CampusQuery.Numeric.Shortest

/-!
# Written forms of binary64 numbers

Both forms use the shortest digits. The plain form is always positional and has
a text for every number; the JSON form marks a number as fractional and leaves
numbers that are not finite without a text.
-/

namespace CampusQuery.Numeric.Binary64

/-- The plain form: positional, no trailing `.0`, a tied last digit rounded up. -/
def plain : Binary64 → String
  | .nan => "NaN"
  | .infinite negative => if negative then "-inf" else "inf"
  | .finite negative magnitude =>
      let digits :=
        if magnitude.val = 0 then "0"
        else (ShortDecimal.ofMagnitude .up magnitude).positional
      if negative then "-" ++ digits else digits

/-- The JSON form of a magnitude. Leading exponents from `-5` to `15` are positional. -/
def jsonMagnitude (magnitude : Nat) : String :=
  if magnitude = 0 then "0.0"
  else
    let short := ShortDecimal.ofMagnitude .toEven magnitude
    let leading := short.leadingExponent
    if -5 ≤ leading ∧ leading ≤ 15 then
      if 0 ≤ short.exponent then short.positional ++ ".0" else short.positional
    else short.scientific

/-- The JSON form: a fraction or an exponent is always shown. -/
def json? : Binary64 → Option String
  | .finite negative magnitude =>
      some (if negative then "-" ++ jsonMagnitude magnitude else jsonMagnitude magnitude)
  | _ => none

end CampusQuery.Numeric.Binary64
