import CampusQuery.Proofs.Service.Outcomes
import CampusQuery.Service.Startup

/-!
# Who may read answers

No route says anything about origins, so who may read an answer is up to the policy alone. The
policy comes from the configured origins that can stand in a header. If there are none, every
origin may read; the wildcard among them leaves no policy, and then the service does not start.
-/

namespace CampusQuery

open Http

/-- A response admits an origin: it is opened to that one or to all. -/
def Http.Response.Admits (response : Response) (origin : String) : Prop :=
  ∃ value, ("access-control-allow-origin", value) ∈ response.headers ∧
    (value = OriginPolicy.wildcard ∨ value = origin)

/-- A response that says nothing of origins, only how its body is to be read and which methods its
path serves. -/
def Http.Response.Unopened (response : Response) : Prop :=
  ∀ header ∈ response.headers, header.1 = "content-type" ∨ header.1 = "allow"

/-! ## Policies -/

namespace Http.OriginPolicy

variable {configured : List String} {policy : OriginPolicy}

theorem wildcard_mem_filter_iff :
    wildcard ∈ configured.filter isHeaderValue ↔ wildcard ∈ configured := by
  have hwildcard : isHeaderValue wildcard = true := by decide
  rw [List.mem_filter, hwildcard, and_iff_left rfl]

/-- All that configured origins can come to. -/
theorem ofConfigured?_cases (configured : List String) :
    (configured.filter isHeaderValue = [] ∧ ofConfigured? configured = some .any) ∨
      (wildcard ∈ configured ∧ ofConfigured? configured = none) ∨
      (configured.filter isHeaderValue ≠ [] ∧ wildcard ∉ configured ∧
        ofConfigured? configured = some (.listed (configured.filter isHeaderValue))) := by
  rw [← wildcard_mem_filter_iff]
  unfold ofConfigured?
  dsimp only
  split
  next hempty => exact .inl ⟨List.isEmpty_iff.1 hempty, rfl⟩
  next hfilled =>
    rw [List.isEmpty_iff] at hfilled
    split
    next hwildcard => exact .inr (.inl ⟨List.contains_iff_mem.1 hwildcard, rfl⟩)
    next hwildcard => exact .inr (.inr ⟨hfilled, mt List.contains_iff_mem.2 hwildcard, rfl⟩)

theorem any_iff_of_ofConfigured? (hpolicy : ofConfigured? configured = some policy) :
    policy = .any ↔ ∀ origin ∈ configured, isHeaderValue origin = false := by
  have hunusable : (∀ origin ∈ configured, isHeaderValue origin = false) ↔
      configured.filter isHeaderValue = [] := by
    simp [List.filter_eq_nil_iff]
  rw [hunusable]
  rcases ofConfigured?_cases configured with ⟨hempty, hany⟩ | ⟨-, hnone⟩ | ⟨hfilled, -, hlisted⟩
  · cases hpolicy.symm.trans hany
    exact iff_of_true rfl hempty
  · cases hpolicy.symm.trans hnone
  · cases hpolicy.symm.trans hlisted
    exact iff_of_false OriginPolicy.noConfusion hfilled

/-- A policy that does not open answers to all lists the origins that can stand in a header, and the
wildcard is none of them. -/
theorem listed_of_ofConfigured? {origins : List String}
    (hpolicy : ofConfigured? configured = some (.listed origins)) :
    origins = configured.filter isHeaderValue ∧ wildcard ∉ origins := by
  rcases ofConfigured?_cases configured with ⟨-, hany⟩ | ⟨-, hnone⟩ | ⟨-, hwildcard, hlisted⟩
  · cases hpolicy.symm.trans hany
  · cases hpolicy.symm.trans hnone
  · cases hpolicy.symm.trans hlisted
    exact ⟨rfl, mt wildcard_mem_filter_iff.1 hwildcard⟩

theorem ofConfigured?_eq_none_iff : ofConfigured? configured = none ↔ wildcard ∈ configured := by
  rcases ofConfigured?_cases configured with ⟨hempty, hany⟩ | ⟨hmem, hnone⟩ | ⟨-, hnot, hlisted⟩
  · rw [hany, ← wildcard_mem_filter_iff, hempty]
    exact iff_of_false (Option.some_ne_none _) List.not_mem_nil
  · exact iff_of_true hnone hmem
  · rw [hlisted]
    exact iff_of_false (Option.some_ne_none _) hnot

/-- Origins that cannot stand in a header do not matter. -/
theorem ofConfigured?_filter (configured : List String) :
    ofConfigured? (configured.filter isHeaderValue) = ofConfigured? configured := by
  unfold ofConfigured?
  rw [List.filter_filter]
  simp only [Bool.and_self]

theorem mem_headers_iff {asking : Option String} {value : String} :
    ("access-control-allow-origin", value) ∈ policy.headers asking ↔
      policy.allowed? asking = some value := by
  rw [headers, Option.mem_toList, Option.map_eq_some_iff]
  constructor
  · intro hallowed
    obtain ⟨_, hallowed, heq⟩ := hallowed
    cases heq
    exact hallowed
  · intro hallowed
    exact ⟨value, hallowed, rfl⟩

end Http.OriginPolicy

namespace Service

variable {service : Service} {moment : Moment} {store : Store} {request : Request}

/-! ## Answers and their headers -/

theorem unopened_bare (status : Nat) : (Response.bare status).Unopened := by
  intro header hmem
  exact absurd hmem List.not_mem_nil

theorem unopened_of_singleton {response : Response} {name value : String}
    (hheaders : response.headers = [(name, value)])
    (hname : name = "content-type" ∨ name = "allow") : response.Unopened := by
  intro header hmem
  rw [hheaders] at hmem
  rwa [List.mem_singleton.1 hmem]

theorem unopened_refusal (refusal : Refusal) : (refusal.response moment).Unopened := by
  cases refusal <;> exact unopened_of_singleton rfl (.inl rfl)

theorem unopened_of_performed {route : Route} {next : Store} {response : Response}
    (hperform : service.perform moment store request route = .ok (next, response)) :
    response.Unopened := by
  cases route with
  | dataset id kind =>
      obtain ⟨_, -, -, rfl⟩ := addDataset_eq_ok_iff.1 hperform
      exact unopened_of_singleton rfl (.inl rfl)
  | datasetId id =>
      obtain ⟨_, -, -, rfl⟩ := removeDataset_eq_ok_iff.1 hperform
      exact unopened_of_singleton rfl (.inl rfl)
  | query =>
      obtain ⟨_, hrun, hend⟩ := Query.Answer.map_eq_ok_iff.1 hperform
      cases hend
      obtain ⟨_, -, hrest⟩ := Query.Answer.bind_eq_ok_iff.1 hrun
      obtain ⟨_, -, hresult⟩ := Query.Answer.bind_eq_ok_iff.1 hrest
      cases hresult
      exact unopened_of_singleton rfl (.inl rfl)
  | datasets =>
      cases hperform
      exact unopened_of_singleton rfl (.inl rfl)
  | health =>
      cases hperform
      exact unopened_of_singleton rfl (.inl rfl)
  | liveness =>
      cases hperform
      exact unopened_bare _

theorem unopened_route (service : Service) (moment : Moment) (store : Store) (request : Request) :
    (service.route moment store request).2.Unopened := by
  unfold route
  split
  · exact unopened_bare _
  next route _ =>
    split
    · split
      next answer hperform => exact unopened_of_performed hperform
      next refusal _ => exact unopened_refusal refusal
    · exact unopened_of_singleton rfl (.inr rfl)

/-- Only the policy says who may read an answer, on every route and under every method. -/
theorem mem_headers_handle_iff {value : String} :
    ("access-control-allow-origin", value) ∈ (service.handle moment store request).2.headers ↔
      service.origins.allowed? request.origin? = some value := by
  unfold handle
  split
  · rw [← OriginPolicy.mem_headers_iff]
    simp [OriginPolicy.preflight, Response.withHeaders, Response.bare]
  · have hheaders : ∀ response : Response, ∀ method,
        (response.forMethod method).headers = response.headers := by
      intro response method
      unfold Response.forMethod
      split <;> rfl
    have hroute : ("access-control-allow-origin", value) ∉
        (service.route moment store request).2.headers := by
      intro hmem
      have hname := unopened_route service moment store request _ hmem
      simp at hname
    dsimp only [Response.withHeaders]
    rw [hheaders, List.mem_append, or_iff_right hroute, OriginPolicy.mem_headers_iff]

theorem admits_handle_iff {origin : String} :
    (service.handle moment store request).2.Admits origin ↔
      ∃ value, service.origins.allowed? request.origin? = some value ∧
        (value = OriginPolicy.wildcard ∨ value = origin) := by
  simp only [Response.Admits, mem_headers_handle_iff]

/-- A service's answers admit just the configured origins, as they ask, or everyone, and everyone
exactly if no configured origin can stand in a header. -/
theorem answers_admit_configured {configured : List String} {maxRows maxBodySize : Nat}
    (hmade : ofOrigins? configured maxRows maxBodySize = some service) :
    (service.origins = .any ↔ ∀ other ∈ configured, isHeaderValue other = false) ∧
    ∀ moment store request origin,
      (service.handle moment store request).2.Admits origin ↔
        (∀ other ∈ configured, isHeaderValue other = false) ∨
          (request.origin? = some origin ∧ origin ∈ configured ∧ isHeaderValue origin = true) := by
  obtain ⟨policy, hpolicy, rfl⟩ := Option.map_eq_some_iff.1 hmade
  have hany := OriginPolicy.any_iff_of_ofConfigured? hpolicy
  refine ⟨hany, fun moment store request origin => ?_⟩
  rw [admits_handle_iff, ← hany]
  cases policy with
  | any => exact iff_of_true ⟨_, rfl, .inl rfl⟩ (.inl rfl)
  | listed origins =>
      obtain ⟨rfl, hwildcard⟩ := OriginPolicy.listed_of_ofConfigured? hpolicy
      simp only [OriginPolicy.allowed?, Option.filter_eq_some_iff, List.contains_iff_mem,
        reduceCtorEq, false_or]
      constructor
      · intro hadmits
        obtain ⟨value, ⟨hasking, hlisted⟩, rfl | rfl⟩ := hadmits
        · exact absurd hlisted hwildcard
        · exact ⟨hasking, List.mem_filter.1 hlisted⟩
      · intro hadmits
        exact ⟨origin, ⟨hadmits.1, List.mem_filter.2 hadmits.2⟩, .inr rfl⟩

/-- Of two configured origins only the one that can stand in a header is admitted. -/
theorem usable_origin_admitted :
    ∃ service : Service,
      ofOrigins? ["http://campus.example", "http://labs.example\n"] 5000 1024 = some service ∧
      (service.handle ⟨"1", 0⟩ Store.empty
        ⟨"GET", "/api/v1/datasets", [("origin", "http://campus.example")], ""⟩).2.Admits
          "http://campus.example" ∧
      ¬ (service.handle ⟨"2", 0⟩ Store.empty
        ⟨"OPTIONS", "/api/v1/datasets", [("origin", "http://other.example")], ""⟩).2.Admits
          "http://other.example" := by
  have hmade : ofOrigins? ["http://campus.example", "http://labs.example\n"] 5000 1024 =
      some ⟨.listed ["http://campus.example"], 5000, 1024⟩ := by decide
  have hadmits := (answers_admit_configured hmade).2
  refine ⟨_, hmade, (hadmits _ _ _ _).2 (.inr ⟨?_, by decide⟩), ?_⟩
  · simp [Request.origin?, Headers.get?]
  · have hunlisted : "http://other.example" ∉ ["http://campus.example", "http://labs.example\n"] :=
      by decide
    have husable : ¬ ∀ origin ∈ ["http://campus.example", "http://labs.example\n"],
        isHeaderValue origin = false := by decide
    rw [hadmits]
    exact fun hadmitted => hadmitted.elim husable fun hlisted => hunlisted hlisted.2.1

/-- An origin that is not configured reads answers, since the one that is ends in a line break. -/
theorem unlisted_origin_admitted :
    ∃ service : Service, ofOrigins? ["http://campus.example\n"] 5000 1024 = some service ∧
      "http://other.example" ∉ ["http://campus.example\n"] ∧
      (service.handle ⟨"1", 0⟩ Store.empty
        ⟨"GET", "/health/live", [("origin", "http://other.example")], ""⟩).2.Admits
          "http://other.example" :=
  ⟨⟨.any, 5000, 1024⟩, by decide, by decide, admits_handle_iff.2 ⟨_, rfl, .inl rfl⟩⟩

/-! ## Starting -/

/-- Whether a service is made is up to the wildcard alone. -/
theorem ofOrigins?_eq_none_iff {configured : List String} {maxRows maxBodySize : Nat} :
    ofOrigins? configured maxRows maxBodySize = none ↔ OriginPolicy.wildcard ∈ configured := by
  rw [ofOrigins?, Option.map_eq_none_iff, OriginPolicy.ofConfigured?_eq_none_iff]

theorem exists_ofOrigins?_iff {configured : List String} {maxRows maxBodySize : Nat} :
    (∃ service, ofOrigins? configured maxRows maxBodySize = some service) ↔
      OriginPolicy.wildcard ∉ configured := by
  rw [← Option.ne_none_iff_exists', ne_eq, ofOrigins?_eq_none_iff]

/-- The settings and the store are found that a service is to start with. -/
structure Prepares (arguments : List String) (env : Environment) (tree : FileTree)
    (config : Config) (store : Store) : Prop where
  configured : ∃ file, configFile arguments = .ok file ∧ settings file env tree = .ok config
  seeded : ∃ later, Logging.setUp config.logging env tree = .ok later ∧
    seededStore config later = .ok store

variable {arguments : List String} {env : Environment} {tree : FileTree} {config : Config}

/-- A service that is prepared starts unless the wildcard is configured. -/
theorem start_of_prepares (hprepares : Prepares arguments env tree config store) :
    start arguments env tree = match ofConfig? config with
      | some service => .ok ⟨service, store, config.api.address⟩
      | none => .error .wildcardOrigin := by
  obtain ⟨⟨file, hfile, hsettings⟩, later, hlogging, hseeded⟩ := hprepares
  unfold start
  rw [hfile]
  change (settings file env tree >>= _) = _
  rw [hsettings]
  change ((Logging.setUp config.logging env tree).mapError _ >>= _) = _
  rw [hlogging]
  change (seededStore config later >>= _) = _
  rw [hseeded]
  rfl

theorem started_iff :
    (∃ started, start arguments env tree = .ok started) ↔
      ∃ config store, Prepares arguments env tree config store ∧
        OriginPolicy.wildcard ∉ config.api.corsOrigins := by
  constructor
  · intro hstarted
    obtain ⟨started, hstart⟩ := hstarted
    obtain ⟨file, hfile, hrest⟩ := Query.Answer.bind_eq_ok_iff.1 hstart
    obtain ⟨config, hsettings, hrest⟩ := Query.Answer.bind_eq_ok_iff.1 hrest
    obtain ⟨later, hlogging, hrest⟩ := Query.Answer.bind_eq_ok_iff.1 hrest
    obtain ⟨store, hseeded, hrest⟩ := Query.Answer.bind_eq_ok_iff.1 hrest
    have hsetUp := Query.Answer.mapError_eq_ok_iff.1 hlogging
    refine ⟨config, store, ⟨⟨file, hfile, hsettings⟩, later, hsetUp, hseeded⟩,
      fun hwildcard => ?_⟩
    have hnone : ofConfig? config = none := ofOrigins?_eq_none_iff.2 hwildcard
    rw [hnone] at hrest
    cases hrest
  · intro hprepared
    obtain ⟨config, store, hprepares, hwildcard⟩ := hprepared
    obtain ⟨service, hservice⟩ : ∃ service, ofConfig? config = some service :=
      exists_ofOrigins?_iff.2 hwildcard
    rw [start_of_prepares hprepares, hservice]
    exact ⟨_, rfl⟩

/-! The steps before a service is made have failures of their own. -/

theorem configFile_ne_wildcardOrigin : configFile arguments ≠ .error .wildcardOrigin := by
  unfold configFile
  split
  · split <;> simp
  · simp

theorem settings_ne_wildcardOrigin {file : Option String} :
    settings file env tree ≠ .error .wildcardOrigin := by
  unfold settings
  split
  next path => cases Config.loadUnder tree env path <;> simp [Except.mapError]
  next => simp

theorem setUp_ne_wildcardOrigin {settings : LoggingSettings} :
    (Logging.setUp settings env tree).mapError StartFailure.logging ≠ .error .wildcardOrigin := by
  cases Logging.setUp settings env tree <;> simp [Except.mapError]

theorem seededStore_ne_wildcardOrigin : seededStore config tree ≠ .error .wildcardOrigin := by
  unfold seededStore
  split
  · simp
  · split <;> simp

theorem prepares_of_wildcardOrigin (hstart : start arguments env tree = .error .wildcardOrigin) :
    ∃ config store, Prepares arguments env tree config store ∧ ofConfig? config = none := by
  rcases Query.Answer.bind_eq_error_iff.1 hstart with hfailed | ⟨file, hfile, hrest⟩
  · exact absurd hfailed configFile_ne_wildcardOrigin
  rcases Query.Answer.bind_eq_error_iff.1 hrest with hfailed | ⟨config, hsettings, hrest⟩
  · exact absurd hfailed settings_ne_wildcardOrigin
  rcases Query.Answer.bind_eq_error_iff.1 hrest with hfailed | ⟨later, hlogging, hrest⟩
  · exact absurd hfailed setUp_ne_wildcardOrigin
  rcases Query.Answer.bind_eq_error_iff.1 hrest with hfailed | ⟨store, hseeded, hrest⟩
  · exact absurd hfailed seededStore_ne_wildcardOrigin
  have hsetUp := Query.Answer.mapError_eq_ok_iff.1 hlogging
  refine ⟨config, store, ⟨⟨file, hfile, hsettings⟩, later, hsetUp, hseeded⟩, ?_⟩
  split at hrest
  · cases hrest
  next hnone => exact hnone

theorem start_eq_wildcardOrigin_iff :
    start arguments env tree = .error .wildcardOrigin ↔
      ∃ config store, Prepares arguments env tree config store ∧
        OriginPolicy.wildcard ∈ config.api.corsOrigins := by
  constructor
  · intro hstart
    obtain ⟨config, store, hprepares, hnone⟩ := prepares_of_wildcardOrigin hstart
    exact ⟨config, store, hprepares, ofOrigins?_eq_none_iff.1 hnone⟩
  · intro hprepared
    obtain ⟨config, store, hprepares, hwildcard⟩ := hprepared
    have hnone : ofConfig? config = none := ofOrigins?_eq_none_iff.2 hwildcard
    rw [start_of_prepares hprepares, hnone]

/-- A service is made of every configuration without the wildcard, whatever else it says; origins
that cannot stand in a header are passed over. With the wildcard none is made, and starting fails
at that. -/
theorem made_without_wildcard (configured : List String) (maxRows maxBodySize : Nat)
    (config : Config) (arguments : List String) (env : Environment) (tree : FileTree) :
    ((∃ service, ofOrigins? configured maxRows maxBodySize = some service) ↔
      OriginPolicy.wildcard ∉ configured) ∧
    ofOrigins? (configured.filter isHeaderValue) maxRows maxBodySize =
      ofOrigins? configured maxRows maxBodySize ∧
    ((∃ service, ofConfig? config = some service) ↔
      OriginPolicy.wildcard ∉ config.api.corsOrigins) ∧
    ((∃ started, start arguments env tree = .ok started) ↔
      ∃ found store, Prepares arguments env tree found store ∧
        OriginPolicy.wildcard ∉ found.api.corsOrigins) ∧
    (start arguments env tree = .error .wildcardOrigin ↔
      ∃ found store, Prepares arguments env tree found store ∧
        OriginPolicy.wildcard ∈ found.api.corsOrigins) := by
  have hignored : ofOrigins? (configured.filter isHeaderValue) maxRows maxBodySize =
      ofOrigins? configured maxRows maxBodySize := by
    rw [ofOrigins?, OriginPolicy.ofConfigured?_filter, ofOrigins?]
  exact ⟨exists_ofOrigins?_iff, hignored, exists_ofOrigins?_iff, started_iff,
    start_eq_wildcardOrigin_iff⟩

/-- A configuration is read although no service is made of it: one of its origins is the
wildcard. -/
theorem wildcard_among_origins_not_made :
    ∃ config, Config.parse? "[api]\ncors_origins = [\"*\", \"http://campus.example\"]\n" =
        some config ∧
      ofConfig? config = none := by
  have hparse : Config.parse? "[api]\ncors_origins = [\"*\", \"http://campus.example\"]\n" =
      some { Config.default with
        api := { Config.default.api with corsOrigins := ["*", "http://campus.example"] } } := by
    decide +kernel
  exact ⟨_, hparse, by decide⟩

end Service

end CampusQuery
