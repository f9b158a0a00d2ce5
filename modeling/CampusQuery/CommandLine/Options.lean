/-!
# Options and operands

Arguments of a command line are options, each with a value, and operands. An
option is written `--name value`, `--name=value`, `-n value`, `-n=value` or
`-nvalue`, and may be given once. After `--` everything is an operand.
-/

namespace CampusQuery.CommandLine

/-- An option by its name and its letter. -/
structure OptionName where
  name : String
  letter : Char
deriving DecidableEq, Repr

abbrev Values := List (String × String)

def Values.get? (values : Values) (option : OptionName) : Option String := values.lookup option.name

/-- Add the value of an option that has none yet. -/
def Values.insert? (values : Values) (option : OptionName) (value : String) : Option Values :=
  if (values.get? option).isSome then none else some ((option.name, value) :: values)

/-- What one argument is. -/
inductive Piece where
  | operand
  | separator
  | opening (option : OptionName)
  | complete (option : OptionName) (value : String)
  | unknown
deriving DecidableEq, Repr

/-- Whether an argument can be the value of the option before it. -/
def isValue (argument : String) : Bool := argument = "-" || !argument.startsWith "-"

def longPiece (known : List OptionName) (body : List Char) : Piece :=
  let name := body.takeWhile (· ≠ '=')
  match known.find? fun option => option.name.toList = name, body.dropWhile (· ≠ '=') with
  | some option, '=' :: value => .complete option (String.ofList value)
  | some option, _ => .opening option
  | none, _ => .unknown

def shortPiece (known : List OptionName) (letter : Char) (value : List Char) : Piece :=
  match known.find? fun option => option.letter = letter, value with
  | some option, [] => .opening option
  | some option, '=' :: value => .complete option (String.ofList value)
  | some option, value => .complete option (String.ofList value)
  | none, _ => .unknown

/-- What an argument is. A dash alone is an operand. -/
def piece (known : List OptionName) (argument : String) : Piece :=
  match argument.toList with
  | ['-', '-'] => .separator
  | '-' :: '-' :: body => longPiece known body
  | '-' :: letter :: value => shortPiece known letter value
  | _ => .operand

/-- Read options and operands wherever they stand. -/
def scan? (known : List OptionName) (values : Values) : List String → Option (Values × List String)
  | [] => some (values, [])
  | argument :: rest =>
      match piece known argument with
      | .operand => do
          let (values, operands) ← scan? known values rest
          some (values, argument :: operands)
      | .separator => some (values, rest)
      | .complete option value => do scan? known (← values.insert? option value) rest
      | .opening option =>
          match rest with
          | value :: rest =>
              if isValue value then do scan? known (← values.insert? option value) rest else none
          | [] => none
      | .unknown => none

/-- Read the options before the first operand, which is given with what follows it. -/
def scanLeading? (known : List OptionName) (values : Values) :
    List String → Option (Values × String × List String)
  | [] => none
  | argument :: rest =>
      match piece known argument with
      | .operand => some (values, argument, rest)
      | .complete option value => do scanLeading? known (← values.insert? option value) rest
      | .opening option =>
          match rest with
          | value :: rest =>
              if isValue value then do scanLeading? known (← values.insert? option value) rest
              else none
          | [] => none
      | .separator | .unknown => none

/-- Whether an argument asks for the version. What is run together with the letter is not read. -/
def isVersionFlag (argument : String) : Bool :=
  argument = "--version" || argument.startsWith "-V"

/-- Whether the version is asked for, with nothing but well-formed options before that. -/
def asksVersionAfter (known : List OptionName) (values : Values) : List String → Bool
  | [] => false
  | argument :: rest =>
      isVersionFlag argument || match piece known argument with
        | .complete option value =>
            match values.insert? option value with
            | some values => asksVersionAfter known values rest
            | none => false
        | .opening option =>
            match rest with
            | value :: rest =>
                isValue value && match values.insert? option value with
                  | some values => asksVersionAfter known values rest
                  | none => false
            | [] => false
        | _ => false

/-- Whether a command line asks for the version and for nothing else. -/
def asksVersion (known : List OptionName) (arguments : List String) : Bool :=
  asksVersionAfter known [] arguments

end CampusQuery.CommandLine
