import CampusQuery.Dataset.Operation
import CampusQuery.Proofs.Service.Bodies
import CampusQuery.Proofs.Service.Outcomes
import CampusQuery.Proofs.Service.Routes

/-!
# The service refines the store

Each request that the service answers is an exchange: the store changes as the
operation that was asked for changes it, or not at all, and the answer says what
came of it. Over any sequence of requests every answer is given this way on the
store that the requests before it left, and none of them is a failure of the
service.
-/

namespace CampusQuery

open Http

/-- A response reports an error: its status and code, with some wording. -/
def Http.Response.Reports (response : Response) (status : Nat) (code : String) : Prop :=
  response.status = status ∧ ∃ message requestId, response.body = .json (.object [
    ("error", .object [("code", .string code), ("message", .string message)]),
    ("request_id", .string requestId)])

/-- A response reports one error only. -/
theorem Http.Response.Reports.code_eq {response : Response} {status other : Nat}
    {code found : String} (hreports : response.Reports status code)
    (hfound : response.Reports other found) : code = found := by
  obtain ⟨-, message, requestId, hbody⟩ := hreports
  obtain ⟨-, _, _, hsame⟩ := hfound
  have hjson := Body.json.inj (hbody.symm.trans hsame)
  simp only [Json.object.injEq, List.cons.injEq, Prod.mk.injEq, Json.string.injEq] at hjson
  exact hjson.1.2.1.2

namespace Service

open Query

/-- A request for a route by a method. -/
structure Asks (request : Request) (method : String) (route : Route) : Prop where
  method_eq : request.method = method
  path_eq : request.path = route.path
  writable : route.IsWritable

/-! ## What is promised -/

/-- A query is answered with exactly the rows of its run, or with the reason why there are none. -/
structure AnswersQuery (service : Service) (store : Store) (document : Json) (response : Response) :
    Prop where
  rows : ∀ output, Query.run service.maxRows store document = .ok output →
    response.status = 200 ∧ ∃ shown, response.body = .json (.object [("result", .array shown)]) ∧
      List.Forall₂ Query.Row.ShownBy output.rows shown
  too_large : response.Reports 400 "RESULT_TOO_LARGE" ↔
    ∃ count, Query.run service.maxRows store document = .error (.tooLarge count service.maxRows)
  invalid : response.Reports 400 "INVALID_QUERY" ↔
    ∃ reason, Query.run service.maxRows store document = .error (.invalid reason)
  ends : response.status = 200 ∨ response.Reports 400 "RESULT_TOO_LARGE" ∨
    response.Reports 400 "INVALID_QUERY"

/-- A request is answered on a store, and leaves a store behind. The store only changes by adding
the dataset of a `PUT` or removing the id of a `DELETE`, and then the answer is `200`; every other
answer leaves it as it was. -/
structure Exchange (service : Service) (before : Store) (request : Request) (after : Store)
    (response : Response) : Prop where
  changes_only : after ≠ before → response.status = 200 ∧
    ((∃ id kind, Asks request "PUT" (.dataset id kind)) ∨
      ∃ id, Asks request "DELETE" (.datasetId id))
  adds : ∀ id kind, Asks request "PUT" (.dataset id kind) →
    ∀ dataset, service.Carries request id kind dataset → ∀ next, before.add dataset = .ok next →
      after = next ∧ response.status = 200 ∧ response.body =
        .json (.object [("result", .array ((before.ids ++ [dataset.id]).map Json.string))])
  adds_only : ∀ id kind, Asks request "PUT" (.dataset id kind) → response.status = 200 →
    ∃ dataset, service.Carries request id kind dataset ∧ before.add dataset = .ok after
  removes : ∀ raw, Asks request "DELETE" (.datasetId raw) →
    ∀ id, Encodes raw id → ∀ next, before.remove id = .ok next →
      after = next ∧ response.status = 200 ∧
        response.body = .json (.object [("result", .string id)])
  removes_only : ∀ raw, Asks request "DELETE" (.datasetId raw) → response.status = 200 →
    ∃ id, Encodes raw id ∧ before.remove id = .ok after
  lists : Asks request "GET" .datasets → response.status = 200 ∧
    ∃ listed, response.body = .json (.object [("result", .array listed)]) ∧
      List.Forall₂ Dataset.ListedBy before.datasets listed
  reports : Asks request "GET" .health → response.status = 200 ∧
    ∃ entries, response.body = .json (.object entries) ∧
      Json.lookup? "datasets" entries = some (.number (.integer before.datasets.length))
  answers : Asks request "POST" .query → ∀ document, service.Brings request document →
    service.AnswersQuery before document response
  no_failure : response.status < 500

variable {service : Service} {moment : Moment} {store next : Store} {request : Request}
  {method : String} {route : Route}

/-! ## From routes to answers -/

/-- What is sent for an answer: its store, its status, and its body unless only headers are asked
for. -/
structure Sends (sent answer : Store × Response) (method : String) : Prop where
  store_eq : sent.1 = answer.1
  status_eq : sent.2.status = answer.2.status
  body_eq : method ≠ "HEAD" → sent.2.body = answer.2.body

theorem sends_route (hmethod : request.method ≠ "OPTIONS") :
    Sends (service.handle moment store request) (service.route moment store request)
      request.method := by
  unfold handle
  rw [if_neg hmethod]
  refine ⟨rfl, ?_, ?_⟩
  · dsimp only [Response.withHeaders, Response.forMethod]
    split <;> rfl
  · intro hhead
    dsimp only [Response.withHeaders, Response.forMethod]
    rw [if_neg hhead]

theorem ne_options_of_mem_methods (hserved : method ∈ route.methods) : method ≠ "OPTIONS" := by
  rintro rfl
  cases route <;> simp [Route.methods] at hserved

theorem Asks.ofPath? (hasks : Asks request method route) :
    Route.ofPath? request.path = some route :=
  Route.ofPath?_eq_some_iff.2 ⟨hasks.path_eq, hasks.writable⟩

/-- A route answers the requests for it if it serves their method. -/
theorem sends_perform (hasks : Asks request method route) (hserved : method ∈ route.methods) :
    Sends (service.handle moment store request)
      (match service.perform moment store request route with
        | .ok answer => answer
        | .error refusal => (store, refusal.response moment)) method := by
  obtain rfl := hasks.method_eq
  have hsends := @sends_route service moment store request (ne_options_of_mem_methods hserved)
  unfold Service.route at hsends
  rw [hasks.ofPath?] at hsends
  dsimp only at hsends
  rwa [if_pos (List.contains_iff_mem.2 hserved)] at hsends

theorem sends_of_performed {answer : Store × Response} (hasks : Asks request method route)
    (hserved : method ∈ route.methods)
    (hperform : service.perform moment store request route = .ok answer) :
    Sends (service.handle moment store request) answer method := by
  have hsends := @sends_perform service moment store _ _ _ hasks hserved
  rwa [hperform] at hsends

theorem sends_of_refused {refusal : Refusal} (hasks : Asks request method route)
    (hserved : method ∈ route.methods)
    (hperform : service.perform moment store request route = .error refusal) :
    Sends (service.handle moment store request) (store, refusal.response moment) method := by
  have hsends := @sends_perform service moment store _ _ _ hasks hserved
  rwa [hperform] at hsends

/-- A request that no route serves changes nothing and is no failure. -/
theorem handle_of_unserved
    (hunserved : ∀ route, Asks request request.method route → request.method ∉ route.methods) :
    (service.handle moment store request).1 = store ∧
      (service.handle moment store request).2.status < 500 := by
  by_cases hmethod : request.method = "OPTIONS"
  · unfold handle
    rw [if_pos hmethod]
    exact ⟨rfl, (by decide : 200 < 500)⟩
  · have hsends := @sends_route service moment store request hmethod
    rw [hsends.store_eq, hsends.status_eq]
    unfold Service.route
    split
    · exact ⟨rfl, (by decide : 404 < 500)⟩
    next route hroute =>
      obtain ⟨hpath, hwritable⟩ := Route.ofPath?_eq_some_iff.1 hroute
      rw [if_neg (mt List.contains_iff_mem.1 (hunserved route ⟨rfl, hpath, hwritable⟩))]
      exact ⟨rfl, (by decide : 405 < 500)⟩

/-! ## What routes do -/

theorem blamesClient_perform (hstore : store.WellFormed) (route : Route) :
    BlamesClient (service.perform moment store request route) := by
  cases route with
  | dataset id kind => exact blamesClient_addDataset id kind
  | datasetId id => exact blamesClient_removeDataset id
  | query => exact (blamesClient_runQuery hstore).map
  | datasets => exact .ok _
  | health => exact .ok _
  | liveness => exact .ok _

/-- What a route performs is answered `200`, and only two routes change the store. -/
theorem status_of_performed {response : Response}
    (hperform : service.perform moment store request route = .ok (next, response)) :
    response.status = 200 ∧ (next = store ∨ (∃ id kind, route = .dataset id kind) ∨
      ∃ id, route = .datasetId id) := by
  cases route with
  | dataset id kind =>
      obtain ⟨_, -, -, rfl⟩ := addDataset_eq_ok_iff.1 hperform
      exact ⟨rfl, .inr (.inl ⟨id, kind, rfl⟩)⟩
  | datasetId id =>
      obtain ⟨_, -, -, rfl⟩ := removeDataset_eq_ok_iff.1 hperform
      exact ⟨rfl, .inr (.inr ⟨id, rfl⟩)⟩
  | query =>
      obtain ⟨_, hrun, hend⟩ := Answer.map_eq_ok_iff.1 hperform
      cases hend
      exact ⟨status_of_runQuery hrun, .inl rfl⟩
  | datasets =>
      cases hperform
      exact ⟨rfl, .inl rfl⟩
  | health =>
      cases hperform
      exact ⟨rfl, .inl rfl⟩
  | liveness =>
      cases hperform
      exact ⟨rfl, .inl rfl⟩

/-- A request for a route that is answered `200` was performed. -/
theorem performed_of_status (hstore : store.WellFormed) (hasks : Asks request method route)
    (hserved : method ∈ route.methods)
    (hstatus : (service.handle moment store request).2.status = 200) :
    ∃ response, service.perform moment store request route =
      .ok ((service.handle moment store request).1, response) := by
  cases hperform : service.perform moment store request route with
  | ok answer =>
      have hsends := sends_of_performed hasks hserved hperform
      exact ⟨answer.2, by rw [hsends.store_eq]⟩
  | error refusal =>
      have hsends := sends_of_refused hasks hserved hperform
      have hclient := blamesClient_perform hstore route refusal hperform moment
      rw [hsends.status_eq] at hstatus
      simp only at hstatus
      omega

/-! ## Queries -/

theorem reports_of_failed {sent : Store × Response} {error : ServiceError}
    (hsends : Sends sent (store, (Refusal.failed error).response moment) method)
    (hhead : method ≠ "HEAD") : sent.2.Reports error.errorClass.status error.errorClass.code :=
  ⟨hsends.status_eq, error.message, moment.requestId, hsends.body_eq hhead⟩

/-- A query that brings JSON is answered by what its run comes to. -/
theorem answersQuery {document : Json} (hstore : store.WellFormed)
    (hasks : Asks request "POST" .query) (hbrings : service.Brings request document) :
    service.AnswersQuery store document (service.handle moment store request).2 := by
  have hserved : "POST" ∈ Route.query.methods := by decide
  cases hrun : Query.run service.maxRows store document with
  | ok output =>
      have hperform : service.perform moment store request .query =
          .ok (store, .result (.array (output.rows.map Row.toJson))) :=
        Answer.map_eq_ok_iff.2 ⟨_, runQuery_of_ok hbrings hrun, rfl⟩
      have hsends := sends_of_performed hasks hserved hperform
      have hok : (service.handle moment store request).2.status = 200 := hsends.status_eq
      have hnone : ∀ code, ¬ (service.handle moment store request).2.Reports 400 code := by
        intro code hreports
        exact absurd (hok.symm.trans hreports.1) (by decide)
      exact {
        rows := by
          intro found hfound
          cases hrun.symm.trans hfound
          exact ⟨hok, _, hsends.body_eq (by decide), Row.forall₂_shownBy output.rows⟩
        too_large := iff_of_false (hnone _) fun ⟨_, hfailed⟩ => nomatch hrun.symm.trans hfailed
        invalid := iff_of_false (hnone _) fun ⟨_, hfailed⟩ => nomatch hrun.symm.trans hfailed
        ends := .inl hok }
  | error failure =>
      have hperform : service.perform moment store request .query =
          .error (.failed (.query failure)) := by
        rw [perform, runQuery_of_error hbrings hrun]
        rfl
      have hsends := sends_of_refused hasks hserved hperform
      rcases run_error_cases hstore hrun with ⟨reason, rfl⟩ | ⟨count, rfl⟩
      · have hreports : (service.handle moment store request).2.Reports 400 "INVALID_QUERY" :=
          reports_of_failed hsends (by decide)
        exact {
          rows := fun _ hfound => nomatch hrun.symm.trans hfound
          too_large := iff_of_false
            (fun hother => absurd (hreports.code_eq hother) (by decide))
            fun ⟨_, hfailed⟩ => nomatch hrun.symm.trans hfailed
          invalid := iff_of_true hreports ⟨reason, hrun⟩
          ends := .inr (.inr hreports) }
      · have hreports : (service.handle moment store request).2.Reports 400 "RESULT_TOO_LARGE" :=
          reports_of_failed hsends (by decide)
        exact {
          rows := fun _ hfound => nomatch hrun.symm.trans hfound
          too_large := iff_of_true hreports ⟨count, hrun⟩
          invalid := iff_of_false
            (fun hother => absurd (hreports.code_eq hother) (by decide))
            fun ⟨_, hfailed⟩ => nomatch hrun.symm.trans hfailed
          ends := .inr (.inl hreports) }

/-! ## One request -/

/-- No answer is a failure of the service, and a change of the store is answered `200` on one of
the two routes that may change it. -/
theorem handle_changes (service : Service) (moment : Moment) (hstore : store.WellFormed)
    (request : Request) :
    (service.handle moment store request).2.status < 500 ∧
      ((service.handle moment store request).1 ≠ store →
        (service.handle moment store request).2.status = 200 ∧
          ∃ route, Asks request request.method route ∧ request.method ∈ route.methods ∧
            ((∃ id kind, route = .dataset id kind) ∨ ∃ id, route = .datasetId id)) := by
  by_cases hserved : ∃ route, Asks request request.method route ∧ request.method ∈ route.methods
  · obtain ⟨route, hasks, hmethod⟩ := hserved
    cases hperform : service.perform moment store request route with
    | ok answer =>
        obtain ⟨hstatus, hchange⟩ := status_of_performed hperform
        have hsends := sends_of_performed hasks hmethod hperform
        rw [hsends.status_eq, hsends.store_eq, hstatus]
        exact ⟨by decide, fun hne => ⟨rfl, route, hasks, hmethod, hchange.resolve_left hne⟩⟩
    | error refusal =>
        have hclient := blamesClient_perform hstore route refusal hperform moment
        have hsends := sends_of_refused hasks hmethod hperform
        rw [hsends.status_eq, hsends.store_eq]
        exact ⟨hclient.2, fun hne => absurd rfl hne⟩
  · have hunserved := @handle_of_unserved service moment store request
      fun route hasks hmethod => hserved ⟨route, hasks, hmethod⟩
    exact ⟨hunserved.2, fun hne => absurd hunserved.1 hne⟩

/-- Every request on a well-formed store is answered as promised. -/
theorem exchange_handle (service : Service) (moment : Moment) (hstore : store.WellFormed)
    (request : Request) :
    service.Exchange store request (service.handle moment store request).1
      (service.handle moment store request).2 := by
  have hput : ∀ {id kind}, "PUT" ∈ (Route.dataset id kind).methods := List.mem_singleton.2 rfl
  have hdelete : ∀ {id}, "DELETE" ∈ (Route.datasetId id).methods := List.mem_singleton.2 rfl
  have hchanges := handle_changes service moment hstore request
  constructor
  case changes_only =>
    intro hchanged
    obtain ⟨hstatus, route, hasks, hmethod, hroute⟩ := hchanges.2 hchanged
    refine ⟨hstatus, ?_⟩
    rcases hroute with ⟨id, kind, rfl⟩ | ⟨id, rfl⟩
    · exact .inl ⟨id, kind, List.mem_singleton.1 hmethod ▸ hasks⟩
    · exact .inr ⟨id, List.mem_singleton.1 hmethod ▸ hasks⟩
  case adds =>
    intro id kind hasks dataset hcarries next hadd
    have hperform : service.perform moment store request (.dataset id kind) = .ok (next, _) :=
      addDataset_eq_ok_iff.2 ⟨dataset, hcarries, hadd, rfl⟩
    have hsends := sends_of_performed hasks hput hperform
    have hbody := hsends.body_eq (by decide)
    rw [Store.ids_add hadd] at hbody
    exact ⟨hsends.store_eq, hsends.status_eq, hbody⟩
  case adds_only =>
    intro id kind hasks hstatus
    obtain ⟨response, hperform⟩ := performed_of_status hstore hasks hput hstatus
    obtain ⟨dataset, hcarries, hadd, -⟩ := addDataset_eq_ok_iff.1 hperform
    exact ⟨dataset, hcarries, hadd⟩
  case removes =>
    intro raw hasks id hid next hremove
    have hperform : service.perform moment store request (.datasetId raw) = .ok (next, _) :=
      removeDataset_eq_ok_iff.2 ⟨id, hid, hremove, rfl⟩
    have hsends := sends_of_performed hasks hdelete hperform
    exact ⟨hsends.store_eq, hsends.status_eq, hsends.body_eq (by decide)⟩
  case removes_only =>
    intro raw hasks hstatus
    obtain ⟨response, hperform⟩ := performed_of_status hstore hasks hdelete hstatus
    obtain ⟨id, hid, hremove, -⟩ := removeDataset_eq_ok_iff.1 hperform
    exact ⟨id, hid, hremove⟩
  case lists =>
    intro hasks
    have hsends := @sends_of_performed service moment store _ _ _ _ hasks (by decide) rfl
    exact ⟨hsends.status_eq, _, hsends.body_eq (by decide), store.forall₂_listedBy⟩
  case reports =>
    intro hasks
    have hsends := @sends_of_performed service moment store _ _ _ _ hasks (by decide) rfl
    exact ⟨hsends.status_eq, _, hsends.body_eq (by decide), rfl⟩
  case answers =>
    intro hasks document hbrings
    exact answersQuery hstore hasks hbrings
  case no_failure => exact hchanges.1

/-- An exchange on a store that operations built leaves one that operations built. -/
theorem Exchange.reachable {before after : Store} {response : Response}
    (hexchange : service.Exchange before request after response) (hbefore : before.Reachable) :
    after.Reachable := by
  by_cases hsame : after = before
  · exact hsame ▸ hbefore
  · obtain ⟨hstatus, ⟨id, kind, hasks⟩ | ⟨raw, hasks⟩⟩ := hexchange.changes_only hsame
    · obtain ⟨dataset, hcarries, hadd⟩ := hexchange.adds_only id kind hasks hstatus
      obtain ⟨items, -, hread⟩ := hcarries.read
      obtain ⟨records, -, hcreate⟩ := Dataset.ofJson_eq_ok_iff.1 hread
      exact .add hbefore hcreate hadd
    · obtain ⟨id, -, hremove⟩ := hexchange.removes_only raw hasks hstatus
      exact .remove hbefore hremove

/-! ## Sequences of requests -/

theorem handleAll_append (service : Service) (store : Store) (past rest : List (Moment × Request)) :
    service.handleAll store (past ++ rest) =
      ((service.handleAll (service.handleAll store past).1 rest).1,
        (service.handleAll store past).2 ++
          (service.handleAll (service.handleAll store past).1 rest).2) := by
  induction past generalizing store with
  | nil => rfl
  | cons entry past ih =>
      simp only [List.cons_append, handleAll, ih]

theorem length_handleAll (service : Service) (store : Store)
    (requests : List (Moment × Request)) :
    (service.handleAll store requests).2.length = requests.length := by
  induction requests generalizing store with
  | nil => rfl
  | cons entry rest ih => simp only [handleAll, List.length_cons, ih]

theorem reachable_handleAll (service : Service) (hstore : store.Reachable)
    (requests : List (Moment × Request)) : (service.handleAll store requests).1.Reachable := by
  induction requests generalizing store with
  | nil => exact hstore
  | cons entry rest ih =>
      exact ih ((exchange_handle service entry.1 hstore.wellFormed entry.2).reachable hstore)

/-- Over any sequence of requests on an initially empty store, the answer to each request is that
of an exchange between the stores that the requests before it, and those up to it, come to. -/
theorem requests_are_exchanges (service : Service) (requests : List (Moment × Request)) :
    (service.handleAll .empty requests).1.Reachable ∧
      (service.handleAll .empty requests).2.length = requests.length ∧
      ∀ past moment request rest, requests = past ++ (moment, request) :: rest →
        ∃ response, (service.handleAll .empty requests).2[past.length]? = some response ∧
          service.Exchange (service.handleAll .empty past).1 request
            (service.handleAll .empty (past ++ [(moment, request)])).1 response := by
  refine ⟨reachable_handleAll service .empty requests, length_handleAll service _ requests, ?_⟩
  rintro past moment request rest rfl
  have hbefore := reachable_handleAll service .empty past
  have hexchange := exchange_handle service moment hbefore.wellFormed request
  have hresponse : (service.handleAll .empty (past ++ (moment, request) :: rest)).2[past.length]? =
      some (service.handle moment (service.handleAll .empty past).1 request).2 := by
    rw [handleAll_append, List.getElem?_append_right (length_handleAll service _ past).le,
      length_handleAll, Nat.sub_self]
    rfl
  have hafter : (service.handleAll .empty (past ++ [(moment, request)])).1 =
      (service.handle moment (service.handleAll .empty past).1 request).1 := by
    rw [handleAll_append]
    rfl
  exact ⟨_, hresponse, hafter ▸ hexchange⟩

/-- Adding a dataset, adding it again, and removing it twice. -/
example :
    let courses : Request := {
      method := "PUT"
      target := "/api/v1/dataset/courses/sections"
      headers := [("content-type", "application/json")]
      body := "[[\"1\",\"310\",\"intro\",\"smith\",\"cpsc\",2015,90,10,1,0]]" }
    let removal : Request := ⟨"DELETE", "/api/v1/dataset/%63ourses", [], ""⟩
    let requests := [courses, courses, removal, removal].map fun request => (⟨"1", 0⟩, request)
    ((Service.mk .any 5000 1000).handleAll .empty requests).2.map Response.status =
      [200, 400, 200, 404] := by decide +kernel

end Service

end CampusQuery
