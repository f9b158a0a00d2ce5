import CampusQuery.Numeric.Binary64

/-!
# Arithmetic on binary64 numbers

Each operation computes its exact result in units of `2 ^ -1074` and rounds
once with `Binary64.nearest`. Infinities and NaN follow the usual table.
-/

namespace CampusQuery.Numeric.Binary64

/-- The signed value of a magnitude, in units. -/
def signedUnits (negative : Bool) (magnitude : Nat) : Int :=
  if negative then -(units magnitude : Int) else units magnitude

/-- The opposite number. -/
protected def neg : Binary64 → Binary64
  | .finite negative magnitude => .finite (!negative) magnitude
  | .infinite negative => .infinite (!negative)
  | .nan => .nan

/-- The sum. An exact zero is `-0` only if both addends are negative. -/
protected def add : Binary64 → Binary64 → Binary64
  | .nan, _ => .nan
  | _, .nan => .nan
  | .infinite a, .infinite b => if a = b then .infinite a else .nan
  | .infinite a, .finite .. => .infinite a
  | .finite .., .infinite b => .infinite b
  | .finite a x, .finite b y =>
      let sum := signedUnits a x + signedUnits b y
      if sum = 0 then signedZero (a && b) else nearest (sum < 0) sum.natAbs 1

/-- The product. -/
protected def mul : Binary64 → Binary64 → Binary64
  | .nan, _ => .nan
  | _, .nan => .nan
  | .infinite a, .infinite b => .infinite (a != b)
  | .infinite a, .finite b y => if y.val = 0 then .nan else .infinite (a != b)
  | .finite a x, .infinite b => if x.val = 0 then .nan else .infinite (a != b)
  | .finite a x, .finite b y => nearest (a != b) (units x * units y) unitsPerOne

/-- The quotient. -/
protected def div : Binary64 → Binary64 → Binary64
  | .nan, _ => .nan
  | _, .nan => .nan
  | .infinite _, .infinite _ => .nan
  | .infinite a, .finite b _ => .infinite (a != b)
  | .finite a _, .infinite b => signedZero (a != b)
  | .finite a x, .finite b y =>
      if y.val = 0 then if x.val = 0 then .nan else .infinite (a != b)
      else nearest (a != b) (units x * unitsPerOne) (units y)

instance : Neg Binary64 := ⟨Binary64.neg⟩
instance : Add Binary64 := ⟨Binary64.add⟩
instance : Mul Binary64 := ⟨Binary64.mul⟩
instance : Div Binary64 := ⟨Binary64.div⟩

/-- The nearest integer, a half going away from zero; the sign is kept. -/
def roundToInteger : Binary64 → Binary64
  | .finite negative magnitude =>
      nearest negative (roundDiv .up (units magnitude) unitsPerOne * unitsPerOne) 1
  | other => other

/-- Past `2 ^ 52` every number is whole. -/
def wholeFrom : Nat := (1023 + 52) * fractionCount

/-- The number rounded to two decimal places by way of hundredths. -/
def roundToHundredths : Binary64 → Binary64
  | .finite negative magnitude =>
      if wholeFrom ≤ magnitude.val then .finite negative magnitude
      else roundToInteger (.finite negative magnitude * ofNat 100) / ofNat 100
  | other => other

end CampusQuery.Numeric.Binary64
