import CampusQuery.Toml.Scalar

/-!
# Reading TOML values

Keys and values as version 1.0 of the format has them. `Toml.value` takes how
many arrays and inline tables may still stand around one another.
-/

namespace CampusQuery.Toml

open Text (Reader digitsValue? after?)

def isBlank (c : Char) : Bool := c = ' ' || c = '\t'

def skipBlanks (input : List Char) : List Char := input.dropWhile isBlank

/-- Whether a character may stand in strings and comments; of the controls only the tab may. -/
def isPrintable (c : Char) : Bool := c = '\t' || (0x20 ≤ c.toNat && c.toNat ≠ 0x7F)

/-- The character of a code point in hexadecimal digits; halves of pairs are none. -/
def codePoint? (digits : List Char) : Option Char := do
  let value ← digitsValue? 16 digits
  if value < 0xD800 ∨ (0xE000 ≤ value ∧ value < 0x110000) then some (Char.ofNat value) else none

/-- The character an escape letter stands for. -/
def simpleEscape? : Char → Option Char
  | '"' => some '"'
  | '\\' => some '\\'
  | 'b' => some '\x08'
  | 'f' => some '\x0c'
  | 'n' => some '\n'
  | 'r' => some '\r'
  | 't' => some '\t'
  | _ => none

/-- The rest of a string after its double quote. -/
def basicString (done : List Char) : List Char → Option (List Char × List Char)
  | [] => none
  | '"' :: rest => some (done.reverse, rest)
  | '\\' :: 'u' :: a :: b :: c :: d :: rest =>
      match codePoint? [a, b, c, d] with
      | some char => basicString (char :: done) rest
      | none => none
  | '\\' :: 'U' :: a :: b :: c :: d :: e :: f :: g :: h :: rest =>
      match codePoint? [a, b, c, d, e, f, g, h] with
      | some char => basicString (char :: done) rest
      | none => none
  | '\\' :: c :: rest =>
      match simpleEscape? c with
      | some char => basicString (char :: done) rest
      | none => none
  | c :: rest => if isPrintable c && c ≠ '\\' then basicString (c :: done) rest else none

/-- The rest of a string after its single quote. -/
def literalString (done : List Char) : List Char → Option (List Char × List Char)
  | [] => none
  | c :: rest =>
      if c = '\x27' then some (done.reverse, rest)
      else if isPrintable c then literalString (c :: done) rest
      else none

/-- Where a string of many lines stands: in its text, after a backslash that must be followed
by a line break, or in the blanks after such a line break. -/
inductive Fold where
  | text
  | backslash
  | blanks
deriving DecidableEq

/-- The rest of a string of many lines after its three double quotes. -/
def basicLines (fold : Fold) (done : List Char) : List Char → Option (List Char × List Char)
  | [] => none
  | '\r' :: '\n' :: rest =>
      if fold = .text then basicLines .text ('\n' :: done) rest else basicLines .blanks done rest
  | '\n' :: rest =>
      if fold = .text then basicLines .text ('\n' :: done) rest else basicLines .blanks done rest
  | '"' :: '"' :: '"' :: '"' :: '"' :: rest =>
      if fold = .backslash then none else some (('"' :: '"' :: done).reverse, rest)
  | '"' :: '"' :: '"' :: '"' :: rest =>
      if fold = .backslash then none else some (('"' :: done).reverse, rest)
  | '"' :: '"' :: '"' :: rest => if fold = .backslash then none else some (done.reverse, rest)
  | '\\' :: 'u' :: a :: b :: c :: d :: rest =>
      match fold, codePoint? [a, b, c, d] with
      | .backslash, _ => none
      | _, some char => basicLines .text (char :: done) rest
      | _, none => none
  | '\\' :: 'U' :: a :: b :: c :: d :: e :: f :: g :: h :: rest =>
      match fold, codePoint? [a, b, c, d, e, f, g, h] with
      | .backslash, _ => none
      | _, some char => basicLines .text (char :: done) rest
      | _, none => none
  | '\\' :: c :: rest =>
      if fold = .backslash then none
      else if c = '\n' then basicLines .blanks done rest
      else if isBlank c || c = '\r' then basicLines .backslash done (c :: rest)
      else match simpleEscape? c with
        | some char => basicLines .text (char :: done) rest
        | none => none
  | c :: rest =>
      if isBlank c && fold ≠ .text then basicLines fold done rest
      else if fold = .backslash || c = '\\' || !isPrintable c then none
      else basicLines .text (c :: done) rest

/-- The rest of a string of many lines after its three single quotes. -/
def literalLines (done : List Char) : List Char → Option (List Char × List Char)
  | [] => none
  | '\r' :: '\n' :: rest => literalLines ('\n' :: done) rest
  | '\n' :: rest => literalLines ('\n' :: done) rest
  | '\x27' :: '\x27' :: '\x27' :: '\x27' :: '\x27' :: rest =>
      some (('\x27' :: '\x27' :: done).reverse, rest)
  | '\x27' :: '\x27' :: '\x27' :: '\x27' :: rest => some (('\x27' :: done).reverse, rest)
  | '\x27' :: '\x27' :: '\x27' :: rest => some (done.reverse, rest)
  | c :: rest => if isPrintable c then literalLines (c :: done) rest else none

/-- A text without the line break it begins with. -/
def dropLineBreak : List Char → List Char
  | '\r' :: '\n' :: rest => rest
  | '\n' :: rest => rest
  | rest => rest

/-- A string in any of the four kinds of quotes. -/
def quotedString? : List Char → Option (Option (List Char × List Char))
  | '"' :: '"' :: '"' :: rest => some (basicLines .text [] (dropLineBreak rest))
  | '"' :: rest => some (basicString [] rest)
  | '\x27' :: '\x27' :: '\x27' :: rest => some (literalLines [] (dropLineBreak rest))
  | '\x27' :: rest => some (literalString [] rest)
  | _ => none

/-- Whether a character may stand in a key without quotes. -/
def isKeyChar (c : Char) : Bool := c.isAlphanum || c = '_' || c = '-'

def simpleKey : Reader String
  | '"' :: rest => (basicString [] rest).map fun (key, rest) => (String.ofList key, rest)
  | '\x27' :: rest => (literalString [] rest).map fun (key, rest) => (String.ofList key, rest)
  | input =>
      let (key, rest) := input.span isKeyChar
      if key.isEmpty then none else some (String.ofList key, rest)

/-- The parts of a key with dots between them. -/
def dottedKey : Nat → List String → Reader (List String)
  | 0, _, _ => none
  | fuel + 1, done, input => do
      let (key, rest) ← simpleKey (skipBlanks input)
      match skipBlanks rest with
      | '.' :: rest => dottedKey fuel (key :: done) rest
      | rest => some ((key :: done).reverse, rest)

/-- The most parts of a key, and one more than arrays and inline tables may be nested. -/
def limit : Nat := 80

/-- A key; it has less than `limit` parts. -/
def key (input : List Char) : Option (List String × List Char) := do
  let (parts, rest) ← dottedKey (input.length + 1) [] input
  if parts.length < limit then some (parts, rest) else none

/-- The text after blanks, line breaks and comments. -/
def skipLines (inComment : Bool) : List Char → Option (List Char)
  | [] => some []
  | '\r' :: '\n' :: rest => skipLines false rest
  | '\n' :: rest => skipLines false rest
  | c :: rest =>
      if inComment then if isPrintable c then skipLines true rest else none
      else if isBlank c then skipLines false rest
      else if c = '#' then skipLines true rest
      else some (c :: rest)

/-- Whether a character may stand in a word that spells a scalar. -/
def isWordChar (c : Char) : Bool := c.isAlphanum || ['+', '-', '.', '_', ':'].contains c

/-- A scalar without quotes. A date and a time may have one blank between them. -/
def word (input : List Char) : Option (Toml × List Char) :=
  let (first, rest) := input.span isWordChar
  match rest with
  | ' ' :: more =>
      let (second, after) := more.span isWordChar
      if skipDate? first = some [] && (skipTime? second).isSome then
        (scalar? (first ++ ' ' :: second)).map fun value => (value, after)
      else (scalar? first).map fun value => (value, rest)
  | _ => (scalar? first).map fun value => (value, rest)

/-- The items of an array up to its bracket, comments and a last comma allowed. -/
def arrayItems (item : Reader α) : Nat → List α → Reader (List α)
  | 0, _, _ => none
  | fuel + 1, done, input => do
      match ← skipLines false input with
      | ']' :: rest => some (done.reverse, rest)
      | input =>
          let (thing, rest) ← item input
          match ← skipLines false rest with
          | ',' :: rest => arrayItems item fuel (thing :: done) rest
          | ']' :: rest => some ((thing :: done).reverse, rest)
          | _ => none

def assignment (value : Reader Toml) : Reader (List String × Toml) := fun input => do
  let (path, rest) ← key input
  let rest ← after? '=' (skipBlanks rest)
  let (value, rest) ← value (skipBlanks rest)
  some ((path, value), rest)

/-- The assignments of an inline table up to its brace; one is due now. -/
def inlineItems (value : Reader Toml) : Nat → List (List String × Toml) →
    Reader (List (List String × Toml))
  | 0, _, _ => none
  | fuel + 1, done, input => do
      let (thing, rest) ← assignment value (skipBlanks input)
      match skipBlanks rest with
      | ',' :: rest => inlineItems value fuel (thing :: done) rest
      | '\x7d' :: rest => some ((thing :: done).reverse, rest)
      | _ => none

/-- The rest of an inline table after its brace. -/
def inlineTable (value : Reader Toml) : Reader Toml := fun input =>
  match skipBlanks input with
  | '\x7d' :: rest => some (.table [], rest)
  | input => do
      let (assignments, rest) ← inlineItems value (input.length + 1) [] input
      let entries ← assignAll assignments []
      some (.table (freezeEntries entries), rest)

/-- A value with at most `depth` arrays and inline tables around one another. -/
def value : Nat → Reader Toml
  | 0 => fun input =>
      match quotedString? input with
      | some result => result.map fun (text, rest) => (.string (String.ofList text), rest)
      | none => word input
  | depth + 1 => fun input =>
      match input with
      | '[' :: rest =>
          (arrayItems (value depth) (rest.length + 1) [] rest).map fun (items, rest) =>
            (.array items, rest)
      | '\x7b' :: rest => inlineTable (value depth) rest
      | _ =>
          match quotedString? input with
          | some result => result.map fun (text, rest) => (.string (String.ofList text), rest)
          | none => word input

end CampusQuery.Toml
