/-!
# Blank characters

The characters of the Unicode property `White_Space`, and texts made of them.
-/

namespace CampusQuery.Text

/-- The code points of `White_Space`. -/
def blankCodePoints : List Nat :=
  [0x09, 0x0A, 0x0B, 0x0C, 0x0D, 0x20, 0x85, 0xA0, 0x1680, 0x2000, 0x2001, 0x2002, 0x2003, 0x2004,
    0x2005, 0x2006, 0x2007, 0x2008, 0x2009, 0x200A, 0x2028, 0x2029, 0x202F, 0x205F, 0x3000]

def isBlank (c : Char) : Bool := blankCodePoints.contains c.toNat

/-- Whether a text shows nothing; the empty text does not. -/
def isBlankText (text : String) : Bool := text.toList.all isBlank

def trim (text : List Char) : List Char :=
  ((text.dropWhile isBlank).reverse.dropWhile isBlank).reverse

/-- Every character that core calls white space is blank. -/
theorem isBlank_of_isWhitespace {c : Char} (hspace : c.isWhitespace = true) :
    isBlank c = true := by
  simp only [Char.isWhitespace, Bool.or_eq_true, decide_eq_true_eq] at hspace
  rcases hspace with ((rfl | rfl) | rfl) | rfl <;> decide

end CampusQuery.Text
