import CampusQuery.Toml.Reader

/-!
# TOML documents

A document is a sequence of lines: assignments, and headers that say which table
the assignments after them belong to.
-/

namespace CampusQuery.Toml

open Text (Reader after?)

/-- What a line of a document says. -/
inductive Statement where
  | assign (path : List String) (value : Toml)
  | table (path : List String)
  | element (path : List String)

/-- What follows the statement of a line: blanks, a comment, a line break. -/
def lineEnd (inComment : Bool) : List Char → Option (List Char)
  | [] => some []
  | '\r' :: '\n' :: rest => some rest
  | '\n' :: rest => some rest
  | c :: rest =>
      if inComment then if isPrintable c then lineEnd true rest else none
      else if isBlank c then lineEnd false rest
      else if c = '#' then lineEnd true rest
      else none

def statement : Reader Statement
  | '[' :: '[' :: rest => do
      let (path, rest) ← key rest
      let rest ← after? ']' (skipBlanks rest)
      let rest ← after? ']' rest
      some (.element path, rest)
  | '[' :: rest => do
      let (path, rest) ← key rest
      let rest ← after? ']' (skipBlanks rest)
      some (.table path, rest)
  | input => (assignment (value (limit - 1)) input).map fun ((path, value), rest) =>
      (.assign path value, rest)

def statements : Nat → List Statement → List Char → Option (List Statement)
  | 0, _, _ => none
  | fuel + 1, done, input => do
      match ← skipLines false input with
      | [] => some done.reverse
      | input =>
          let (thing, rest) ← statement input
          statements fuel (thing :: done) (← lineEnd false rest)

/-- The assignments before the next header. -/
def leadingAssignments : List Statement → List (List String × Toml) × List Statement
  | .assign path value :: rest =>
      let (assignments, rest) := leadingAssignments rest
      ((path, value) :: assignments, rest)
  | rest => ([], rest)

theorem length_leadingAssignments_le (all : List Statement) :
    (leadingAssignments all).2.length ≤ all.length := by
  fun_induction leadingAssignments all with
  | case1 path value rest assignments left heq ih => simp [heq] at ih; simp; omega
  | case2 rest _ => exact Nat.le_refl _

def addSections (root : Entries) : List Statement → Option Entries
  | [] => some root
  | .assign .. :: _ => none
  | .table path :: rest =>
      let body := leadingAssignments rest
      match within (openTable body.1 (path.getLastD "")) path.dropLast root with
      | none => none
      | some root => addSections root body.2
  | .element path :: rest =>
      let body := leadingAssignments rest
      match within (openElement body.1 (path.getLastD "")) path.dropLast root with
      | none => none
      | some root => addSections root body.2
termination_by statements => statements.length
decreasing_by
  all_goals
    have hle := length_leadingAssignments_le rest
    simp only [List.length_cons]
    omega

def read? (text : String) : Option (List (String × Toml)) := do
  let input := match text.toList with
    | '\ufeff' :: rest => rest
    | input => input
  let all ← statements (input.length + 1) [] input
  let (assignments, headed) := leadingAssignments all
  let root ← assignAll assignments []
  let root ← addSections root headed
  some (freezeEntries root)

end CampusQuery.Toml
