/-!
# Aligned tables

Columns are as wide as their longest text in UTF-8 octets, but texts are padded
by characters. A text never has more characters than octets, so every line of a
table still has the same number of characters.
-/

namespace CampusQuery.Text

/-- A text followed by blanks up to a number of characters. -/
def padRight (width : Nat) (text : String) : String :=
  text ++ String.ofList (List.replicate (width - text.length) ' ')

def dashes (width : Nat) : String := String.ofList (List.replicate width '-')

namespace Table

/-- What stands between two columns. -/
def gap : String := " | "

/-- The greatest number of octets among texts. -/
def widest (texts : List String) : Nat :=
  texts.foldl (fun width text => Nat.max width text.utf8ByteSize) 0

/-- The width of each column under its heading. -/
def widths (heading : List String) (rows : List (List String)) : List Nat :=
  heading.mapIdx fun index name => widest (name :: rows.map fun row => row.getD index "")

/-- Texts padded to their columns and joined. -/
def line (widths : List Nat) (texts : List String) : String :=
  String.intercalate gap (List.zipWith padRight widths texts)

/-- The width of a whole line: all columns and the gaps between them. -/
def lineWidth (widths : List Nat) : Nat :=
  widths.foldr (· + ·) 0 + gap.length * (widths.length - 1)

/-- The heading, a line of dashes and one line per row. -/
def lines (heading : List String) (rows : List (List String)) : List String :=
  let widths := widths heading rows
  line widths heading :: dashes (lineWidth widths) :: rows.map (line widths)

end Table

end CampusQuery.Text
