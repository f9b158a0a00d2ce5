import CampusQuery.CommandLine.Options

/-!
# Commands

What a command line asks for. The options of every command may stand before or
after its name; of two values the one after it counts.
-/

namespace CampusQuery.CommandLine

/-- What to do. -/
inductive Command where
  | query (file : String)
  | datasets
  | config (output : Option String)
deriving DecidableEq, Repr

/-- How results are shown. -/
inductive Format where
  | table
  | json
  | csv
deriving DecidableEq, Repr

/-- The format of a name; a table if there is none of the name. -/
def Format.ofName : String → Format
  | "json" => .json
  | "csv" => .csv
  | _ => .table

/-- A command with the options of every command. -/
structure Invocation where
  command : Command
  data : Option String
  format : Format
deriving DecidableEq, Repr

def dataOption : OptionName := ⟨"data", 'd'⟩

def formatOption : OptionName := ⟨"format", 'f'⟩

/-- The file that a configuration is written to. -/
def outputOption : OptionName := ⟨"output", 'o'⟩

def commonOptions : List OptionName := [dataOption, formatOption]

/-- Whether an option that names a path names one. -/
def hasPath (values : Values) (option : OptionName) : Bool := values.get? option != some ""

/-- The command of a name with its options and operands. -/
def commandOf? (name : String) (arguments : List String) : Option (Command × Values) := do
  match name with
  | "query" =>
      let (values, operands) ← scan? commonOptions [] arguments
      match operands with
      | [file] => if file.isEmpty then none else some (.query file, values)
      | _ => none
  | "datasets" =>
      let (values, operands) ← scan? commonOptions [] arguments
      if operands.isEmpty then some (.datasets, values) else none
  | "config" =>
      let (values, operands) ← scan? (outputOption :: commonOptions) [] arguments
      if operands.isEmpty && hasPath values outputOption then
        some (.config (values.get? outputOption), values)
      else none
  | _ => none

def Invocation.ofArguments? (arguments : List String) : Option Invocation := do
  let (before, name, rest) ← scanLeading? commonOptions [] arguments
  let (command, values) ← commandOf? name rest
  if hasPath before dataOption && hasPath values dataOption then
    some {
      command
      data := (values.get? dataOption).or (before.get? dataOption)
      format := .ofName
        (((values.get? formatOption).or (before.get? formatOption)).getD "table") }
  else none

def usage : String :=
  "Usage: insight-cli [--data <DATA>] [--format <FORMAT>] "
    ++ "query <FILE> | datasets | config [--output <OUTPUT>]"

end CampusQuery.CommandLine
