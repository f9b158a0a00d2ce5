import CampusQuery.Numeric.Decimal96
import CampusQuery.Query.Error

/-!
# Aggregates

One number from the values of a field over a group. Sums and averages run in
decimal arithmetic, so they do not drift, and are rounded once to hundredths; a
total that leaves the decimal range goes on in binary64.
-/

namespace CampusQuery.Query

open Numeric

/-- The identity of a value: equal numbers are one, and no text is a number. -/
inductive KeyPart where
  | text (value : String)
  | number (value : Binary64)
deriving DecidableEq, Repr

namespace KeyPart

/-- The identity of a value. -/
def ofValue : Value → KeyPart
  | .text value => .text value
  | .number value => .number value.normalizeZero

end KeyPart

/-- A running total. -/
inductive Total where
  | exact (sum : Decimal96)
  | float (sum : Binary64)
deriving DecidableEq, Repr

namespace Total

/-- Add a number, exactly while number and sum have decimals. -/
def add (total : Total) (n : Binary64) : Total :=
  match total with
  | .exact sum =>
      match (Decimal96.ofBinary64? n).bind sum.add? with
      | some sum => .exact sum
      | none => .float (sum.toBinary64 + n)
  | .float sum => .float (sum + n)

/-- The total divided by how many numbers it holds. -/
def mean? (total : Total) (count : Nat) : Option Total :=
  if count = 0 then none
  else match total with
    | .exact sum =>
        match sum.divCount? count with
        | some mean => some (.exact mean)
        | none => some (.float (sum.toBinary64 / .ofNat count))
    | .float sum => some (.float (sum / .ofNat count))

/-- The total rounded to hundredths. -/
def rounded : Total → Binary64
  | .exact sum => sum.roundToHundredths.toBinary64
  | .float sum => sum.roundToHundredths

end Total

/-- What an apply rule knows of the values it has seen. -/
inductive Accumulator where
  | max (greatest : Option Binary64)
  | min (least : Option Binary64)
  | avg (total : Total) (count : Nat)
  | sum (total : Total)
  | distinct (seen : List KeyPart)
deriving DecidableEq, Repr

namespace Accumulator

/-- The accumulator that has seen nothing. -/
def start : ApplyToken → Accumulator
  | .max => .max none
  | .min => .min none
  | .avg => .avg (.exact 0) 0
  | .sum => .sum (.exact 0)
  | .count => .distinct []

/-- The number of a value that must be one. -/
def asNumber : Value → Except ExecutionFault Binary64
  | .number value => .ok value
  | .text _ => .error .textAggregate

def add (acc : Accumulator) (value : Value) : Except ExecutionFault Accumulator :=
  match acc with
  | .max greatest => do
      let n ← asNumber value
      .ok (.max (some (match greatest with | some g => g.max n | none => n)))
  | .min least => do
      let n ← asNumber value
      .ok (.min (some (match least with | some l => l.min n | none => n)))
  | .avg total count => do
      let n ← asNumber value
      .ok (.avg (total.add n) (count + 1))
  | .sum total => do
      let n ← asNumber value
      .ok (.sum (total.add n))
  | .distinct seen =>
      let part := KeyPart.ofValue value
      .ok (.distinct (if seen.contains part then seen else part :: seen))

/-- The number for all values taken in. -/
def finish : Accumulator → Except ExecutionFault Binary64
  | .max greatest =>
      match greatest with
      | some n => .ok n
      | none => .error .emptyAggregate
  | .min least =>
      match least with
      | some n => .ok n
      | none => .error .emptyAggregate
  | .avg total count =>
      match total.mean? count with
      | some mean => .ok mean.rounded
      | none => .error .emptyAverage
  | .sum total => .ok total.rounded
  | .distinct seen => .ok (.ofNat seen.length)

end Accumulator

/-- The number that a token makes of values. -/
def aggregate (token : ApplyToken) (values : List Value) : Except ExecutionFault Binary64 := do
  let acc ← values.foldlM Accumulator.add (Accumulator.start token)
  acc.finish

end CampusQuery.Query
