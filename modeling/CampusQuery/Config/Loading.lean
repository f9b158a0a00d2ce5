import CampusQuery.Config.Decoding
import CampusQuery.FileTree
import CampusQuery.Text.Quoted

/-!
# Loading settings

Settings come from a file or the defaults, and environment variables override
them. A variable whose value cannot be used changes nothing.
-/

namespace CampusQuery

/-- The values of environment variables by name. -/
abbrev Environment := String → Option String

/-- Why a configuration file cannot be used. -/
inductive ConfigError where
  | unreadable (path reason : String)
  | unparsable (path reason : String)
deriving DecidableEq, Repr

/-- The wording of a configuration error. -/
def ConfigError.message : ConfigError → String
  | .unreadable path reason =>
      "Failed to read config file " ++ Text.quoted path ++ ": " ++ reason
  | .unparsable path reason =>
      "Failed to parse config file " ++ Text.quoted path ++ ": " ++ reason

namespace Config

/-- The settings with the usable values of environment variables in place. -/
def withEnvironment (config : Config) (env : Environment) : Config where
  api := { config.api with
    host := (env "INSIGHT_API_HOST").getD config.api.host
    port := ((env "INSIGHT_API_PORT").bind (Text.boundedNat? UInt16.size)).getD config.api.port }
  query := {
    maxResultRows := ((env "INSIGHT_MAX_RESULT_ROWS").bind (Text.boundedNat? UInt64.size)).getD
      config.query.maxResultRows }
  datasets := { dir := (env "INSIGHT_DATA_DIR").or config.datasets.dir }
  logging := { config.logging with
    level := (env "INSIGHT_LOG_LEVEL").getD config.logging.level
    format := (env "INSIGHT_LOG_FORMAT").getD config.logging.format }

def load (tree : FileTree) (path : String) : Except ConfigError Config :=
  match tree.read path with
  | .error fault => .error (.unreadable path fault.message)
  | .ok text =>
      match parse? text with
      | some config => .ok config
      | none => .error (.unparsable path "not a configuration")

/-- The settings of a file under an environment. -/
def loadUnder (tree : FileTree) (env : Environment) (path : String) : Except ConfigError Config :=
  (load tree path).map (·.withEnvironment env)

/-- The user's directory of configuration files. -/
def userDirectory? (env : Environment) : Option String :=
  match env "XDG_CONFIG_HOME" with
  | some directory =>
      if directory.startsWith "/" then some directory else homeDirectory?
  | none => homeDirectory?
where
  homeDirectory? : Option String := (env "HOME").map fun home => FileTree.join home ".config"

/-- The places where a configuration file is looked for. -/
def locations (env : Environment) : List String :=
  ((userDirectory? env).map fun directory =>
      FileTree.join (FileTree.join directory "insight") "config.toml").toList
    ++ ["/etc/insight/config.toml", "./config.toml"]

/-- The settings of the first usable file among paths. -/
def firstUsable? (tree : FileTree) : List String → Option Config
  | [] => none
  | path :: rest =>
      if tree.holds path then
        match load tree path with
        | .ok config => some config
        | .error _ => firstUsable? tree rest
      else firstUsable? tree rest

/-- The settings of the first usable file, or the defaults, under an environment. -/
def loadDefault (tree : FileTree) (env : Environment) : Config :=
  ((firstUsable? tree (locations env)).getD default).withEnvironment env

end Config

end CampusQuery
