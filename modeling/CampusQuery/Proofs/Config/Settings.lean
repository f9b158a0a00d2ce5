import CampusQuery.Config.Loading
import Mathlib

/-!
# Where settings come from

A setting has its place in a configuration text, a default, and perhaps an
environment variable. The variable comes first if its value can be used, then
the text, then the default. Only the origins have no default in a text that
gives other settings of the service.
-/

namespace CampusQuery.Config

/-! ## Settings -/

/-- A setting, by the type of its values. -/
inductive Setting : Type → Type where
  | host : Setting String
  | port : Setting Nat
  | corsOrigins : Setting (List String)
  | requestTimeoutSecs : Setting Nat
  | maxResultRows : Setting Nat
  | dir : Setting (Option String)
  | level : Setting String
  | format : Setting String
  | file : Setting (Option String)

namespace Setting

variable {α : Type}

/-- The group that a setting belongs to. -/
def group : Setting α → String
  | .host | .port | .corsOrigins | .requestTimeoutSecs => "api"
  | .maxResultRows => "query"
  | .dir => "datasets"
  | .level | .format | .file => "logging"

/-- The name of a setting in its group. -/
def name : Setting α → String
  | .host => "host"
  | .port => "port"
  | .corsOrigins => "cors_origins"
  | .requestTimeoutSecs => "request_timeout_secs"
  | .maxResultRows => "max_result_rows"
  | .dir => "dir"
  | .level => "level"
  | .format => "format"
  | .file => "file"

/-- The position of a setting where its group is given as a list of values. -/
def position : Setting α → Nat
  | .host | .maxResultRows | .dir | .level => 0
  | .port | .format => 1
  | .corsOrigins | .file => 2
  | .requestTimeoutSecs => 3

/-- The value of a setting. -/
def value : Setting α → Config → α
  | .host, config => config.api.host
  | .port, config => config.api.port
  | .corsOrigins, config => config.api.corsOrigins
  | .requestTimeoutSecs, config => config.api.requestTimeoutSecs
  | .maxResultRows, config => config.query.maxResultRows
  | .dir, config => config.datasets.dir
  | .level, config => config.logging.level
  | .format, config => config.logging.format
  | .file, config => config.logging.file

/-- What a value in a text means as the value of a setting. -/
def read? : Setting α → Toml → Option α
  | .host | .level | .format => asText
  | .port => asNat UInt16.size
  | .corsOrigins => asTexts
  | .requestTimeoutSecs | .maxResultRows => asNat UInt64.size
  | .dir | .file => fun given => (asText given).map some

/-- The usable value of the variable that overrides a setting. -/
def override? : Setting α → Environment → Option α
  | .host, env => env "INSIGHT_API_HOST"
  | .port, env => (env "INSIGHT_API_PORT").bind (Text.boundedNat? UInt16.size)
  | .maxResultRows, env => (env "INSIGHT_MAX_RESULT_ROWS").bind (Text.boundedNat? UInt64.size)
  | .dir, env => (env "INSIGHT_DATA_DIR").map some
  | .level, env => env "INSIGHT_LOG_LEVEL"
  | .format, env => env "INSIGHT_LOG_FORMAT"
  | .corsOrigins, _ | .requestTimeoutSecs, _ | .file, _ => none

/-- The value that the top table of a text gives for a setting. -/
def given? (setting : Setting α) (entries : List (String × Toml)) : Option Toml :=
  ((Json.lookup? setting.group entries).bind Given.of?).bind
    (·.value? setting.position setting.name)

/-- The value of a setting that a text does not give, though it gives the group. -/
def fallback : Setting α → α
  | .corsOrigins => []
  | setting => setting.value default

/-- The origins are the one setting whose group brings another value than the default. -/
theorem fallback_eq_default_iff (setting : Setting α) :
    setting.fallback = setting.value default ↔ setting.name ≠ "cors_origins" := by
  cases setting with
  | corsOrigins => decide
  | _ => exact iff_of_true rfl (by decide)

end Setting

/-! ## Reading a group of settings -/

namespace Given

variable {α : Type} {settings : Given} {position : Nat} {name : String}

/-- A value is what was given for a setting, or the fallback if nothing was. -/
structure Settles (settings : Given) (position : Nat) (name : String) (read : Toml → Option α)
    (fallback value : α) : Prop where
  of_given : ∀ given, settings.value? position name = some given → read given = some value
  of_missing : settings.value? position name = none → value = fallback

theorem settles_of_setting {read : Toml → Option α} {fallback value : α}
    (hsetting : settings.setting position name read fallback = some value) :
    settings.Settles position name read fallback value := by
  unfold setting at hsetting
  cases hvalue : settings.value? position name with
  | some given =>
      rw [hvalue] at hsetting
      exact ⟨by simpa [hvalue] using hsetting, by simp [hvalue]⟩
  | none =>
      rw [hvalue] at hsetting
      cases hsetting
      exact ⟨by simp [hvalue], fun _ => rfl⟩

theorem settles_of_optional {read : Toml → Option α} {value : Option α}
    (hoptional : settings.optional position name read = some value) :
    settings.Settles position name (fun given => (read given).map some) none value := by
  unfold optional at hoptional
  cases hvalue : settings.value? position name with
  | some given =>
      rw [hvalue] at hoptional
      exact ⟨by simpa [hvalue] using hoptional, by simp [hvalue]⟩
  | none =>
      rw [hvalue] at hoptional
      cases settings with
      | named entries =>
          cases hoptional
          exact ⟨by simp [hvalue], fun _ => rfl⟩
      | listed items => exact nomatch hoptional

end Given

open Given (settles_of_setting settles_of_optional)

section Groups

variable {given : Toml}

theorem settles_of_decodeApi {api : ApiSettings} (hdecode : decodeApi given = some api) :
    ∃ settings, Given.of? given = some settings ∧
      settings.Settles 0 "host" asText defaultHost api.host ∧
      settings.Settles 1 "port" (asNat UInt16.size) defaultPort api.port ∧
      settings.Settles 2 "cors_origins" asTexts [] api.corsOrigins ∧
      settings.Settles 3 "request_timeout_secs" (asNat UInt64.size) defaultTimeoutSecs
        api.requestTimeoutSecs := by
  simp only [decodeApi, Option.bind_eq_bind, Option.bind_eq_some_iff, Option.some.injEq] at hdecode
  obtain ⟨settings, hsettings, host, hhost, port, hport, origins, horigins, timeout, htimeout,
    rfl⟩ := hdecode
  exact ⟨settings, hsettings, settles_of_setting hhost, settles_of_setting hport,
    settles_of_setting horigins, settles_of_setting htimeout⟩

theorem settles_of_decodeQuery {query : QuerySettings} (hdecode : decodeQuery given = some query) :
    ∃ settings, Given.of? given = some settings ∧
      settings.Settles 0 "max_result_rows" (asNat UInt64.size) Query.defaultMaxRows
        query.maxResultRows := by
  simp only [decodeQuery, Option.bind_eq_bind, Option.bind_eq_some_iff,
    Option.some.injEq] at hdecode
  obtain ⟨settings, hsettings, rows, hrows, rfl⟩ := hdecode
  exact ⟨settings, hsettings, settles_of_setting hrows⟩

theorem settles_of_decodeDatasets {datasets : DatasetSettings}
    (hdecode : decodeDatasets given = some datasets) :
    ∃ settings, Given.of? given = some settings ∧
      settings.Settles 0 "dir" (fun given => (asText given).map some) none datasets.dir := by
  simp only [decodeDatasets, Option.bind_eq_bind, Option.bind_eq_some_iff,
    Option.some.injEq] at hdecode
  obtain ⟨settings, hsettings, dir, hdir, rfl⟩ := hdecode
  exact ⟨settings, hsettings, settles_of_optional hdir⟩

theorem settles_of_decodeLogging {logging : LoggingSettings}
    (hdecode : decodeLogging given = some logging) :
    ∃ settings, Given.of? given = some settings ∧
      settings.Settles 0 "level" asText defaultLevel logging.level ∧
      settings.Settles 1 "format" asText defaultFormat logging.format ∧
      settings.Settles 2 "file" (fun given => (asText given).map some) none logging.file := by
  simp only [decodeLogging, Option.bind_eq_bind, Option.bind_eq_some_iff,
    Option.some.injEq] at hdecode
  obtain ⟨settings, hsettings, level, hlevel, format, hformat, file, hfile, rfl⟩ := hdecode
  exact ⟨settings, hsettings, settles_of_setting hlevel, settles_of_setting hformat,
    settles_of_optional hfile⟩

end Groups

/-! ## Reading a text -/

namespace Setting

variable {α γ : Type} {setting : Setting α} {entries : List (String × Toml)} {config : Config}

/-- A setting has the value that its text gives. If the text gives none, it has the default, or
what its group brings if the text gives the group. -/
structure Settled (setting : Setting α) (entries : List (String × Toml)) (config : Config) :
    Prop where
  of_given : ∀ given, setting.given? entries = some given →
    setting.read? given = some (setting.value config)
  of_missing : setting.given? entries = none → setting.value config =
    if (Json.lookup? setting.group entries).isSome then setting.fallback else setting.value default

/-- A setting is settled by its group, and the group by the top table. -/
theorem settled_of_group {place : Nat} {read : Toml → Option γ} {fallback group : γ}
    (hgroup : (Given.named entries).Settles place setting.group read fallback group)
    (part : γ → α) (hvalue : setting.value config = part group)
    (hdefault : setting.value default = part fallback)
    (hread : ∀ given group, read given = some group → ∃ settings, Given.of? given = some settings ∧
      settings.Settles setting.position setting.name setting.read? setting.fallback (part group)) :
    setting.Settled entries config := by
  cases hfound : Json.lookup? setting.group entries with
  | none =>
      refine ⟨by simp [given?, hfound], fun _ => ?_⟩
      rw [hfound, hvalue, hdefault, hgroup.of_missing hfound]
      rfl
  | some given =>
      obtain ⟨settings, hsettings, hsettles⟩ := hread given group (hgroup.of_given given hfound)
      have hgiven : setting.given? entries = settings.value? setting.position setting.name := by
        simp [given?, hfound, hsettings]
      refine ⟨fun inner hinner => ?_, fun hmissing => ?_⟩
      · rw [hvalue]
        exact hsettles.of_given inner (hgiven.symm.trans hinner)
      · rw [hvalue, hfound]
        exact hsettles.of_missing (hgiven.symm.trans hmissing)

theorem settled_of_decode (hdecode : decode entries = some config) (setting : Setting α) :
    setting.Settled entries config := by
  simp only [decode, Option.bind_eq_bind, Option.bind_eq_some_iff, Option.some.injEq] at hdecode
  obtain ⟨api, hapi, query, hquery, datasets, hdatasets, logging, hlogging, rfl⟩ := hdecode
  replace hapi := settles_of_setting hapi
  replace hquery := settles_of_setting hquery
  replace hdatasets := settles_of_setting hdatasets
  replace hlogging := settles_of_setting hlogging
  cases setting with
  | host =>
      exact settled_of_group hapi ApiSettings.host rfl rfl fun _ _ hread =>
        (settles_of_decodeApi hread).imp fun _ hall => ⟨hall.1, hall.2.1⟩
  | port =>
      exact settled_of_group hapi ApiSettings.port rfl rfl fun _ _ hread =>
        (settles_of_decodeApi hread).imp fun _ hall => ⟨hall.1, hall.2.2.1⟩
  | corsOrigins =>
      exact settled_of_group hapi ApiSettings.corsOrigins rfl rfl fun _ _ hread =>
        (settles_of_decodeApi hread).imp fun _ hall => ⟨hall.1, hall.2.2.2.1⟩
  | requestTimeoutSecs =>
      exact settled_of_group hapi ApiSettings.requestTimeoutSecs rfl rfl fun _ _ hread =>
        (settles_of_decodeApi hread).imp fun _ hall => ⟨hall.1, hall.2.2.2.2⟩
  | maxResultRows =>
      exact settled_of_group hquery QuerySettings.maxResultRows rfl rfl fun _ _ hread =>
        settles_of_decodeQuery hread
  | dir =>
      exact settled_of_group hdatasets DatasetSettings.dir rfl rfl fun _ _ hread =>
        settles_of_decodeDatasets hread
  | level =>
      exact settled_of_group hlogging LoggingSettings.level rfl rfl fun _ _ hread =>
        (settles_of_decodeLogging hread).imp fun _ hall => ⟨hall.1, hall.2.1⟩
  | format =>
      exact settled_of_group hlogging LoggingSettings.format rfl rfl fun _ _ hread =>
        (settles_of_decodeLogging hread).imp fun _ hall => ⟨hall.1, hall.2.2.1⟩
  | file =>
      exact settled_of_group hlogging LoggingSettings.file rfl rfl fun _ _ hread =>
        (settles_of_decodeLogging hread).imp fun _ hall => ⟨hall.1, hall.2.2.2⟩

/-- A variable that can be used gives the setting its value, and any other changes nothing. -/
theorem value_withEnvironment (setting : Setting α) (config : Config) (env : Environment) :
    setting.value (config.withEnvironment env) =
      (setting.override? env).getD (setting.value config) := by
  cases setting with
  | dir =>
      simp only [value, override?, withEnvironment]
      cases env "INSIGHT_DATA_DIR" <;> rfl
  | _ => rfl

/-- Where the value of a setting comes from: from its variable, or else from the text, or else it
is the default, unless it is the origins and the text gives some setting of the service. -/
structure Resolves (setting : Setting α) (entries : List (String × Toml)) (config : Config) :
    Prop where
  overridden : ∀ env value, setting.override? env = some value →
    setting.value (config.withEnvironment env) = value
  kept : ∀ env, setting.override? env = none →
    setting.value (config.withEnvironment env) = setting.value config
  given : ∀ given, setting.given? entries = some given →
    setting.read? given = some (setting.value config)
  missing : setting.given? entries = none → (setting.value config = setting.value default ↔
    setting.name ≠ "cors_origins" ∨ Json.lookup? "api" entries = none)

theorem group_of_origins (horigins : setting.name = "cors_origins") : setting.group = "api" := by
  cases setting <;> first | rfl | exact absurd horigins (by decide)

theorem Settled.resolves (hsettled : setting.Settled entries config) :
    setting.Resolves entries config where
  overridden env value hvalue := by rw [value_withEnvironment, hvalue, Option.getD_some]
  kept env hnone := by rw [value_withEnvironment, hnone, Option.getD_none]
  given := hsettled.of_given
  missing hmissing := by
    rw [hsettled.of_missing hmissing]
    split
    next hgroup =>
      rw [setting.fallback_eq_default_iff, iff_self_or]
      -- the origins are a setting of the service, which is given here
      intro hnone horigins
      rw [group_of_origins horigins, hnone] at hgroup
      exact absurd hgroup (by decide)
    next hgroup =>
      refine iff_of_true rfl ?_
      by_cases horigins : setting.name = "cors_origins"
      · rw [group_of_origins horigins] at hgroup
        exact .inr (Option.not_isSome_iff_eq_none.1 hgroup)
      · exact .inl horigins

end Setting

/-- Every setting of a text that is accepted resolves: it has the usable value of its variable, the
value that the text gives, or the default. Only the origins are empty and have no default where the
text gives some setting of the service. -/
theorem settings_resolve {text : String} {config : Config} (hparse : parse? text = some config) :
    ∃ entries, Toml.read? text = some entries ∧
      (∀ (α : Type) (setting : Setting α), setting.Resolves entries config) ∧
      (Setting.corsOrigins.given? entries = none → Json.lookup? "api" entries ≠ none →
        config.api.corsOrigins = []) ∧
      ∀ tree path env, FileTree.read tree path = .ok text →
        loadUnder tree env path = .ok (config.withEnvironment env) := by
  obtain ⟨entries, hread, hdecode⟩ := Option.bind_eq_some_iff.1 hparse
  have hsettled := fun α (setting : Setting α) => Setting.settled_of_decode hdecode setting
  refine ⟨entries, hread, fun α setting => (hsettled α setting).resolves, ?_, ?_⟩
  · intro hmissing hgiven
    exact ((hsettled _ .corsOrigins).of_missing hmissing).trans
      (if_pos (Option.isSome_iff_ne_none.2 hgiven))
  · intro tree path env htree
    unfold loadUnder load
    rw [htree]
    simp only [hparse]
    rfl

/-- The port stays the default in a text that only limits rows, under a variable that is no
port. -/
theorem port_beside_row_limit :
    ∃ config, parse? "[query]\nmax_result_rows = 10\n" = some config ∧
      config.query.maxResultRows = 10 ∧
      (config.withEnvironment fun name =>
        if name = "INSIGHT_API_PORT" then some "none" else none).api.port = defaultPort := by
  have hread : Toml.read? "[query]\nmax_result_rows = 10\n" =
      some [("query", .table [("max_result_rows", .integer 10)])] := by cbv
  have hparse : parse? "[query]\nmax_result_rows = 10\n" =
      some { default with query := ⟨10⟩ } := by
    decide +kernel
  obtain ⟨entries, hentries, hresolves, -⟩ := settings_resolve hparse
  cases hread.symm.trans hentries
  have hport := hresolves _ .port
  refine ⟨_, hparse, ?_, ?_⟩
  · have hrows := (hresolves _ .maxResultRows).given (.integer 10) rfl
    exact (Option.some.inj hrows).symm
  · have hunusable := hport.kept
      (fun name => if name = "INSIGHT_API_PORT" then some "none" else none)
      (by decide +kernel)
    exact hunusable.trans ((hport.missing rfl).2 (.inr rfl))

/-- A text that gives the port has no origins left, although it does not give any. -/
theorem origins_missing_beside_port :
    ∃ entries config, Toml.read? "[api]\nport = 8080\n" = some entries ∧
      parse? "[api]\nport = 8080\n" = some config ∧
      Setting.corsOrigins.given? entries = none ∧
      Setting.corsOrigins.override? (fun _ => none) = none ∧
      Setting.corsOrigins.value (config.withEnvironment fun _ => none) ≠
        Setting.corsOrigins.value default := by
  have hread : Toml.read? "[api]\nport = 8080\n" =
      some [("api", .table [("port", .integer 8080)])] := by cbv
  have hparse : parse? "[api]\nport = 8080\n" =
      some { default with api := { default.api with port := 8080, corsOrigins := [] } } := by
    decide +kernel
  exact ⟨_, _, hread, hparse, rfl, rfl, by decide⟩

end CampusQuery.Config
