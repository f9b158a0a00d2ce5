import CampusQuery.CommandLine.Options
import CampusQuery.Logging
import CampusQuery.Service.Handling

/-!
# Starting the service

The settings are found, the log is set up, and the store is seeded from the
configured directory. Whatever goes wrong stops the service before it listens.
-/

namespace CampusQuery.Service

open CommandLine

/-- Why the service does not start. -/
inductive StartFailure where
  | usage
  | config (error : ConfigError)
  | logging (fault : LoggingFault)
  | seeding (directory : String) (error : DatasetError)
  | wildcardOrigin
deriving DecidableEq, Repr

namespace StartFailure

/-- The exit status of a service that does not start. -/
def status : StartFailure → Nat
  | .usage => 2
  | .wildcardOrigin => 101
  | _ => 1

/-- The lines of a text, the later ones indented like a cause. -/
def asCause (text : String) : String := "\n    ".intercalate ("" :: text.splitOn "\n")

/-- What a service that does not start tells. A failure inside another is its cause. -/
def message : StartFailure → String
  | .usage => "Usage: insight [--config <CONFIG>]"
  | .config error => "Error: " ++ error.message
  | .logging fault => "Error: " ++ fault.report
  | .seeding directory error =>
      "Error: loading datasets from " ++ directory ++ "\n\nCaused by:" ++ asCause error.message
  | .wildcardOrigin =>
      "Wildcard origin (\x60*\x60) cannot be passed to \x60AllowOrigin::list\x60. "
        ++ "Use \x60AllowOrigin::any()\x60 instead"

end StartFailure

/-- A service that is ready to listen. -/
structure Started where
  service : Service
  store : Store
  address : String
deriving DecidableEq, Repr

def configOption : OptionName := ⟨"config", 'c'⟩

/-- What a service tells that is only asked for its version. -/
def versionLine : String := "insight " ++ version ++ "\n"

/-- Whether the arguments ask for the version and not for a service. -/
def isVersionAsked (arguments : List String) : Bool := asksVersion [configOption] arguments

/-- The configuration file that the arguments name, if they name one. -/
def configFile (arguments : List String) : Except StartFailure (Option String) :=
  match scan? [configOption] [] arguments with
  | some (values, []) =>
      match values.get? configOption with
      | some "" => .error .usage
      | path => .ok path
  | _ => .error .usage

/-- The settings that the service starts with. -/
def settings (file : Option String) (env : Environment) (tree : FileTree) :
    Except StartFailure Config :=
  match file with
  | some path => (Config.loadUnder tree env path).mapError .config
  | none => .ok (Config.loadDefault tree env)

/-- The store that a service starts with. -/
def seededStore (config : Config) (tree : FileTree) : Except StartFailure Store :=
  match config.datasets.dir with
  | none => .ok Store.empty
  | some directory =>
      match Store.empty.loadDirectory tree directory with
      | (store, .ok _) => .ok store
      | (_, .error error) => .error (.seeding directory error)

/-- Start the service up to listening. -/
def start (arguments : List String) (env : Environment) (tree : FileTree) :
    Except StartFailure Started := do
  let config ← settings (← configFile arguments) env tree
  let tree ← (Logging.setUp config.logging env tree).mapError .logging
  let store ← seededStore config tree
  match ofConfig? config with
  | some service => .ok ⟨service, store, config.api.address⟩
  | none => .error .wildcardOrigin

end CampusQuery.Service
