/-!
# Reading texts step by step

A reader takes something from the front of a text and returns the rest, or finds
that the text does not begin with it. The digits of numbers are read here once
for all formats.
-/

namespace CampusQuery.Text

/-- A step of reading: the thing read and the text after it. -/
abbrev Reader (α : Type) := List Char → Option (α × List Char)

/-- The text after a mark. -/
def after? (mark : Char) : List Char → Option (List Char)
  | [] => none
  | c :: rest => if c = mark then some rest else none

def hexDigit? (c : Char) : Option Nat :=
  if '0' ≤ c ∧ c ≤ '9' then some (c.toNat - '0'.toNat)
  else if 'a' ≤ c ∧ c ≤ 'f' then some (c.toNat - 'a'.toNat + 10)
  else if 'A' ≤ c ∧ c ≤ 'F' then some (c.toNat - 'A'.toNat + 10)
  else none

/-- The number written by digits of a base, each digit being below it. -/
def digitsValue? (base : Nat) (digits : List Char) : Option Nat :=
  digits.foldlM (fun value c => do
    let digit ← hexDigit? c
    if digit < base then some (value * base + digit) else none) 0

/-- The number written by decimal digits. -/
def decimalValue (digits : List Char) : Nat :=
  digits.foldl (fun value c => value * 10 + (c.toNat - '0'.toNat)) 0

/-- A natural number written in decimal digits after an optional plus sign, below a bound. -/
def boundedNat? (bound : Nat) (text : String) : Option Nat :=
  let digits := match text.toList with
    | '+' :: rest => rest
    | digits => digits
  if digits.isEmpty || !digits.all Char.isDigit then none
  else
    let value := decimalValue digits
    if value < bound then some value else none

end CampusQuery.Text
