import CampusQuery.Text.Reader
import CampusQuery.Toml.Tables

/-!
# TOML scalars without quotes

Booleans, integers, floats, dates and times are read from one unbroken word.
-/

namespace CampusQuery.Toml

open Numeric
open Text (hexDigit? digitsValue? decimalValue after?)

/-- Digits without the underscores between them; an underscore stands between two digits. -/
def ungroup (isDigit : Char → Bool) : List Char → Option (List Char)
  | [] => none
  | [digit] => if isDigit digit then some [digit] else none
  | digit :: '_' :: rest => if isDigit digit then (ungroup isDigit rest).map (digit :: ·) else none
  | digit :: rest => if isDigit digit then (ungroup isDigit rest).map (digit :: ·) else none

def splitSign : List Char → Bool × List Char
  | '-' :: rest => (true, rest)
  | '+' :: rest => (false, rest)
  | rest => (false, rest)

/-- The digits of a whole number: no zero in front of another digit. -/
def wholeDigits? (word : List Char) : Option (List Char) := do
  let digits ← ungroup Char.isDigit word
  if digits.head? = some '0' && 1 < digits.length then none else some digits

/-- A number of 64 bits with its sign. -/
def inRange? (value : Int) : Option Int :=
  if Int64.minValue.toInt ≤ value ∧ value ≤ Int64.maxValue.toInt then some value else none

/-- Digits of a base after its mark. -/
def basedInteger? (base : Nat) (word : List Char) : Option Int := do
  let digits ← ungroup (fun c => (hexDigit? c).isSome) word
  let value ← digitsValue? base digits
  inRange? value

/-- An integer: decimal with a sign, or of base 16, 8 or 2 without one. -/
def integer? : List Char → Option Int
  | '0' :: 'x' :: word => basedInteger? 16 word
  | '0' :: 'o' :: word => basedInteger? 8 word
  | '0' :: 'b' :: word => basedInteger? 2 word
  | word => do
      let (negative, digits) := splitSign word
      let digits ← wholeDigits? digits
      let value : Int := decimalValue digits
      inRange? (if negative then -value else value)

/-- The exponent part of a float; no exponent is exponent zero. -/
def floatExponent? : List Char → Option Int
  | [] => some 0
  | mark :: word =>
      if mark = 'e' || mark = 'E' then do
        let (negative, digits) := splitSign word
        let digits ← ungroup Char.isDigit digits
        let value : Int := decimalValue digits
        some (if negative then -value else value)
      else none

/-- The digits after a float's point and its exponent. -/
def floatTail? : List Char → Option (List Char × Int)
  | [] => none
  | '.' :: word => do
      let (places, rest) := word.span fun c => c.isDigit || c = '_'
      let places ← ungroup Char.isDigit places
      let exponent ← floatExponent? rest
      some (places, exponent)
  | word => (floatExponent? word).map fun exponent => ([], exponent)

/-- A float; one that is too large above zero is refused. -/
def float? (word : List Char) : Option Binary64 :=
  let (negative, unsigned) := splitSign word
  if unsigned = ['i', 'n', 'f'] then some (.infinite negative)
  else if unsigned = ['n', 'a', 'n'] then some .nan
  else do
    let (whole, rest) := unsigned.span fun c => c.isDigit || c = '_'
    let whole ← wholeDigits? whole
    let (places, exponent) ← floatTail? rest
    let value :=
      Binary64.ofScientific negative (decimalValue (whole ++ places)) (exponent - places.length)
    if value = .infinite false then none else some value

def twoDigits? : List Char → Option (Nat × List Char)
  | a :: b :: rest => if a.isDigit && b.isDigit then some (decimalValue [a, b], rest) else none
  | _ => none

def daysIn (year month : Nat) : Nat :=
  if month = 2 then
    if year % 4 = 0 ∧ (year % 100 ≠ 0 ∨ year % 400 = 0) then 29 else 28
  else if month = 4 ∨ month = 6 ∨ month = 9 ∨ month = 11 then 30
  else 31

/-- The text after a date. -/
def skipDate? (word : List Char) : Option (List Char) := do
  let (century, word) ← twoDigits? word
  let (year, word) ← twoDigits? word
  let (month, word) ← twoDigits? (← after? '-' word)
  let (day, word) ← twoDigits? (← after? '-' word)
  if 1 ≤ month ∧ month ≤ 12 ∧ 1 ≤ day ∧ day ≤ daysIn (century * 100 + year) month then some word
  else none

/-- The text after a time of day. -/
def skipTime? (word : List Char) : Option (List Char) := do
  let (hour, word) ← twoDigits? word
  let (minute, word) ← twoDigits? (← after? ':' word)
  let (second, word) ← twoDigits? (← after? ':' word)
  if 23 < hour ∨ 59 < minute ∨ 60 < second then none
  else match word with
    | '.' :: word =>
        let (places, word) := word.span Char.isDigit
        if places.isEmpty then none else some word
    | word => some word

/-- Whether a text is an offset from universal time. -/
def isOffset : List Char → Bool
  | ['Z'] => true
  | ['z'] => true
  | sign :: word =>
      (sign = '+' || sign = '-') && ((do
        let (hour, word) ← twoDigits? word
        let (minute, word) ← twoDigits? (← after? ':' word)
        some (decide (hour ≤ 23 ∧ minute ≤ 59) && word.isEmpty)) : Option Bool).getD false
  | [] => false

/-- Whether a text is a date, a time, or both with or without an offset. -/
def isDatetime (word : List Char) : Bool :=
  match skipDate? word with
  | some [] => true
  | some (gap :: word) =>
      (gap = 'T' || gap = 't' || gap = ' ') && match skipTime? word with
        | some [] => true
        | some word => isOffset word
        | none => false
  | none => skipTime? word = some []

def scalar? (word : List Char) : Option Toml :=
  if word = ['t', 'r', 'u', 'e'] then some (.boolean true)
  else if word = ['f', 'a', 'l', 's', 'e'] then some (.boolean false)
  else match integer? word with
    | some value => some (.integer value)
    | none => match float? word with
      | some value => some (.float value)
      | none => if isDatetime word then some .datetime else none

end CampusQuery.Toml
