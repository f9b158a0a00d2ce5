import CampusQuery.Config.Loading
import CampusQuery.Text.Blank

/-!
# Setting up the log

Which events are logged is said by a filter: directives between commas, each a
level alone, or a name, a span in brackets or both, with or without a level. A
filter in the environment wins over the configured level if it is well formed. A
configured log file is opened to be added to.
-/

namespace CampusQuery

/-- Why a text is not a filter. -/
inductive FilterFault where
  | malformed
  | unknownLevel
deriving DecidableEq, Repr

def FilterFault.message : FilterFault → String
  | .malformed => "invalid filter directive"
  | .unknownLevel =>
      "error parsing level filter: expected one of \"off\", \"error\", \"warn\", \"info\", "
        ++ "\"debug\", \"trace\", or a number 0-5"

/-- Why the log cannot be set up. -/
inductive LoggingFault where
  | filter (fault : FilterFault)
  | file (fault : FileFault)
deriving DecidableEq, Repr

namespace LoggingFault

def message : LoggingFault → String
  | .filter fault => fault.message
  | .file fault => fault.message

/-- The wording with its cause, which for an unknown level says the same once more. -/
def report (fault : LoggingFault) : String :=
  match fault with
  | .filter .unknownLevel => fault.message ++ "\n\nCaused by:\n    " ++ fault.message
  | _ => fault.message

end LoggingFault

namespace Logging

def levelNames : List String := ["off", "error", "warn", "info", "debug", "trace"]

/-- Whether a text is a level: a name in any case, or a number below six. -/
def isLevel (text : String) : Bool :=
  levelNames.contains text.toLower || (Text.boundedNat? levelNames.length text).isSome

/-- Whether a name in a directive may begin with a character; past ASCII every one may. -/
def beginsName (c : Char) : Bool :=
  c.isAlphanum || 0x80 ≤ c.toNat || c = '_' || c = ':' || c = '-'

/-- What follows a span: nothing, or an equals sign and a level, which is given back. -/
def afterSpan : List Char → Except FilterFault (Option (List Char))
  | [] => .ok none
  | '=' :: level => .ok (some level)
  | _ => .error .malformed

/-- What follows the brace in a span: fields, at least one, up to the end of the span. -/
def afterBrace (rest : List Char) : Except FilterFault (Option (List Char)) :=
  match rest.takeWhile (· ≠ '\x7d'), rest.dropWhile (· ≠ '\x7d') with
  | _ :: _, '\x7d' :: ']' :: rest => afterSpan rest
  | _, _ => .error .malformed

/-- What follows the opening bracket of a span. -/
def afterBracket (rest : List Char) : Except FilterFault (Option (List Char)) :=
  match rest.dropWhile fun c => c ≠ ']' && c ≠ '\x7b' with
  | ']' :: rest => afterSpan rest
  | '\x7b' :: rest => afterBrace rest
  | _ => .error .malformed

/-- The level that a directive gives, if it gives one beside a name or a span. -/
def levelPart : List Char → Except FilterFault (Option (List Char))
  | [] => .error .malformed
  | '[' :: rest => afterBracket rest
  | c :: rest =>
      if beginsName c then
        match rest.dropWhile fun c => c ≠ '=' && c ≠ '[' with
        | [] => .ok none
        | '=' :: level => .ok (some level)
        | _ :: rest => afterBracket rest
      else .error .malformed

/-- Check a directive. Blanks may stand around one that gives no level; a level may be empty. -/
def checkDirective (text : String) : Except FilterFault Unit := do
  let shape := Text.trim text.toList
  match ← levelPart shape with
  | none => .ok ()
  | some level =>
      if shape = text.toList && (level.isEmpty || isLevel (String.ofList level)) then .ok ()
      else .error .unknownLevel

/-- Check a filter; the first faulty directive decides the fault. -/
def checkFilter (text : String) : Except FilterFault Unit :=
  ((text.splitOn ",").filter fun part => !part.isEmpty).forM checkDirective

def isFilter (text : String) : Bool := (checkFilter text).isOk

/-- The filter that a configured level stands for. -/
def configuredFilter (level : String) : String :=
  "insight=" ++ level ++ ",tower_http=" ++ level

/-- Check that there is a usable filter, in the environment or from the settings. -/
def checkFilters (settings : LoggingSettings) (env : Environment) : Except LoggingFault Unit :=
  if (env "RUST_LOG").any isFilter then .ok ()
  else (checkFilter (configuredFilter settings.level)).mapError .filter

/-- Set up the log; a log file that is not there is created. -/
def setUp (settings : LoggingSettings) (env : Environment) (tree : FileTree) :
    Except LoggingFault FileTree := do
  checkFilters settings env
  match settings.file with
  | none => .ok tree
  | some path => (tree.openAppend path).mapError .file

end Logging

end CampusQuery
