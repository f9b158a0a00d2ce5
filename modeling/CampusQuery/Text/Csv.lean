/-!
# Comma-separated records

Fields are joined by commas and records end in a line feed. A field is put in
quotes only if it holds a comma, a quote or a line break, or if it is empty and
alone, for a record of nothing would read as no record.
-/

namespace CampusQuery.Text.Csv

/-- Whether a character cannot stand in a bare field. -/
def isSpecial (c : Char) : Bool := c = '"' || c = ',' || c = '\n' || c = '\r'

/-- The inside of a quoted field: a quote is written twice. -/
def doubleQuotes : List Char → List Char
  | [] => []
  | c :: rest => if c = '"' then '"' :: '"' :: doubleQuotes rest else c :: doubleQuotes rest

def field (text : List Char) : List Char :=
  if text.any isSpecial then '"' :: doubleQuotes text ++ ['"'] else text

def joinFields : List (List Char) → List Char
  | [] => []
  | [last] => field last
  | first :: rest => field first ++ ',' :: joinFields rest

/-- A record as written, with its line feed. -/
def record : List (List Char) → List Char
  | [[]] => ['"', '"', '\n']
  | fields => joinFields fields ++ ['\n']

def document (records : List (List String)) : String :=
  String.ofList (records.flatMap fun fields => record (fields.map String.toList))

/-- Whether all records have as many fields as the first. -/
def isEven : List (List String) → Bool
  | [] => true
  | first :: rest => rest.all fun fields => fields.length == first.length

/-- Records one after another, if they have equally many fields. -/
def write? (records : List (List String)) : Option String :=
  if isEven records then some (document records) else none

end CampusQuery.Text.Csv
