import CampusQuery.Config.Basic
import CampusQuery.Toml.Document

/-!
# Settings from TOML

Each group of settings is a table, or an array of its values in order. A date or
time also stands for a table, in which no setting is given. A setting that is
not given has its default; other keys are passed over.
-/

namespace CampusQuery.Config

/-- How a group of settings is given. -/
inductive Given where
  | named (entries : List (String × Toml))
  | listed (items : List Toml)

namespace Given

/-- The form in which a value gives settings. -/
def of? : Toml → Option Given
  | .table entries => some (.named entries)
  | .array items => some (.listed items)
  | .datetime => some (.named [])
  | _ => none

/-- The value of a setting by its position or name. -/
def value? (settings : Given) (position : Nat) (name : String) : Option Toml :=
  match settings with
  | .named entries => Json.lookup? name entries
  | .listed items => items[position]?

def setting (settings : Given) (position : Nat) (name : String) (decode : Toml → Option α)
    (fallback : α) : Option α :=
  match settings.value? position name with
  | some value => decode value
  | none => some fallback

/-- A setting that may be absent, which a list cannot say. -/
def optional (settings : Given) (position : Nat) (name : String) (decode : Toml → Option α) :
    Option (Option α) :=
  match settings.value? position name, settings with
  | some value, _ => (decode value).map some
  | none, .named _ => some none
  | none, .listed _ => none

end Given

def asText : Toml → Option String
  | .string value => some value
  | _ => none

def asNat (bound : Nat) : Toml → Option Nat
  | .integer value => if 0 ≤ value ∧ value < bound then some value.toNat else none
  | _ => none

def asTexts : Toml → Option (List String)
  | .array items => items.mapM asText
  | _ => none

/-- The settings of `[api]`. Once there are such settings, no origins means none. -/
def decodeApi (value : Toml) : Option ApiSettings := do
  let settings ← Given.of? value
  let host ← settings.setting 0 "host" asText defaultHost
  let port ← settings.setting 1 "port" (asNat UInt16.size) defaultPort
  let origins ← settings.setting 2 "cors_origins" asTexts []
  let timeout ← settings.setting 3 "request_timeout_secs" (asNat UInt64.size) defaultTimeoutSecs
  some ⟨host, port, origins, timeout⟩

def decodeQuery (value : Toml) : Option QuerySettings := do
  let settings ← Given.of? value
  let rows ← settings.setting 0 "max_result_rows" (asNat UInt64.size) Query.defaultMaxRows
  some ⟨rows⟩

def decodeDatasets (value : Toml) : Option DatasetSettings := do
  let settings ← Given.of? value
  let dir ← settings.optional 0 "dir" asText
  some ⟨dir⟩

def decodeLogging (value : Toml) : Option LoggingSettings := do
  let settings ← Given.of? value
  let level ← settings.setting 0 "level" asText defaultLevel
  let format ← settings.setting 1 "format" asText defaultFormat
  let file ← settings.optional 2 "file" asText
  some ⟨level, format, file⟩

/-- All settings from the top table of a document. -/
def decode (entries : List (String × Toml)) : Option Config := do
  let settings := Given.named entries
  let api ← settings.setting 0 "api" decodeApi default.api
  let query ← settings.setting 1 "query" decodeQuery default.query
  let datasets ← settings.setting 2 "datasets" decodeDatasets default.datasets
  let logging ← settings.setting 3 "logging" decodeLogging default.logging
  some ⟨api, query, datasets, logging⟩

/-- The settings of a configuration text. -/
def parse? (text : String) : Option Config := (Toml.read? text).bind decode

end CampusQuery.Config
