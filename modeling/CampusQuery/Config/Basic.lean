import CampusQuery.Query.Execution

/-!
# Settings

The settings of the service and the command line, their defaults, and the
template of a configuration file that spells the defaults out.
-/

namespace CampusQuery

/-- The release that the programs report. -/
def version : String := "0.1.0"

/-- Settings of the service. -/
structure ApiSettings where
  host : String
  port : Nat
  corsOrigins : List String
  requestTimeoutSecs : Nat
deriving DecidableEq, Repr

/-- Settings of the query engine. -/
structure QuerySettings where
  maxResultRows : Nat
deriving DecidableEq, Repr

/-- Where datasets come from. -/
structure DatasetSettings where
  dir : Option String
deriving DecidableEq, Repr

/-- Settings of the log. -/
structure LoggingSettings where
  level : String
  format : String
  file : Option String
deriving DecidableEq, Repr

/-- All settings. -/
structure Config where
  api : ApiSettings
  query : QuerySettings
  datasets : DatasetSettings
  logging : LoggingSettings
deriving DecidableEq, Repr

namespace Config

def defaultHost : String := "0.0.0.0"

def defaultPort : Nat := 4321

def defaultTimeoutSecs : Nat := 30

/-- The origins when there are no settings of the service at all. -/
def defaultOrigins : List String := ["http://localhost:3000", "http://127.0.0.1:3000"]

def defaultLevel : String := "info"

def defaultFormat : String := "pretty"

def default : Config where
  api := ⟨defaultHost, defaultPort, defaultOrigins, defaultTimeoutSecs⟩
  query := ⟨Query.defaultMaxRows⟩
  datasets := ⟨none⟩
  logging := ⟨defaultLevel, defaultFormat, none⟩

/-- The lines of the template of a configuration file. -/
def templateLines : List String := [
  "# Insight Configuration",
  "#",
  "# Environment variables override these settings:",
  "# - INSIGHT_API_HOST",
  "# - INSIGHT_API_PORT",
  "# - INSIGHT_MAX_RESULT_ROWS",
  "# - INSIGHT_DATA_DIR",
  "# - INSIGHT_LOG_LEVEL",
  "# - INSIGHT_LOG_FORMAT",
  "",
  "[api]",
  "# API server host",
  "host = \"0.0.0.0\"",
  "",
  "# API server port",
  "port = 4321",
  "",
  "# Allowed CORS origins",
  "cors_origins = [\"http://localhost:3000\", \"http://127.0.0.1:3000\"]",
  "",
  "# Request timeout in seconds",
  "request_timeout_secs = 30",
  "",
  "[query]",
  "# Queries producing more rows than this fail as too large",
  "max_result_rows = 5000",
  "",
  "[datasets]",
  "# Directory of dataset files (\x7b\"id\", \"kind\", \"records\"\x7d) loaded at startup",
  "# dir = \"./data\"",
  "",
  "[logging]",
  "# Log level: trace, debug, info, warn, error",
  "level = \"info\"",
  "",
  "# Log format: pretty (for development) or json (for production)",
  "format = \"pretty\"",
  "",
  "# Optional log file path",
  "# file = \"/var/log/insight/insight.log\""]

/-- The template of a configuration file. -/
def template : String := String.join (templateLines.map fun line => line ++ "\n")

end Config

/-- The address that the service listens on. -/
def ApiSettings.address (settings : ApiSettings) : String :=
  settings.host ++ ":" ++ toString settings.port

/-- The largest request body that the service reads, in octets. -/
def ApiSettings.maxBodySize : Nat := 50 * 1024 * 1024

end CampusQuery
