import CampusQuery.Proofs.Query.Running
import CampusQuery.Proofs.Service.Routes
import CampusQuery.Service.Handling

/-!
# What becomes of a request on its route

When a request succeeds on the route that it is for, and with which effect. A
request that is refused is always the client's fault: over a store that
operations built, no query breaks down and no dataset needs a file.
-/

namespace CampusQuery

/-! ## Errors of datasets -/

namespace Dataset

theorem status_of_checkRecords {id : String} {kind : Kind} {index : Nat} {records : List Record}
    {error : DatasetError} (hcheck : checkRecords id kind index records = .error error) :
    error.errorClass.status = 400 := by
  induction records generalizing index with
  | nil => exact nomatch hcheck
  | cons record rest ih =>
      unfold checkRecords at hcheck
      split at hcheck
      · cases hcheck
        rfl
      · split at hcheck
        · cases hcheck
          rfl
        · exact ih hcheck

/-- JSON that makes no dataset is a bad request. -/
theorem status_of_ofJson {id : String} {kind : Kind} {json : Json} {error : DatasetError}
    (hread : ofJson id kind json = .error error) : error.errorClass.status = 400 := by
  unfold ofJson at hread
  split at hread
  next records _ =>
    unfold create checkId at hread
    split at hread
    · cases hcheck : checkRecords id kind 0 records with
      | error found =>
          rw [hcheck] at hread
          cases hread
          exact status_of_checkRecords hcheck
      | ok done =>
          rw [hcheck] at hread
          cases hread
    · cases hread
      rfl
  next =>
    cases hread
    rfl

theorem id_kind_of_ofJson {id : String} {kind : Kind} {json : Json} {dataset : Dataset}
    (hread : ofJson id kind json = .ok dataset) : dataset.id = id ∧ dataset.kind = kind := by
  obtain ⟨records, -, hcreate⟩ := ofJson_eq_ok_iff.1 hread
  obtain ⟨rfl, -⟩ := create_eq_ok_iff.1 hcreate
  exact ⟨rfl, rfl⟩

end Dataset

theorem Store.status_of_add {store : Store} {dataset : Dataset} {error : DatasetError}
    (hadd : store.add dataset = .error error) : error.errorClass.status = 400 := by
  rcases Store.add_eq_error_iff.1 hadd with ⟨-, rfl⟩ | ⟨-, -, rfl⟩ <;> rfl

theorem Store.status_of_remove {store : Store} {id : String} {error : DatasetError}
    (hremove : store.remove id = .error error) :
    error.errorClass.status = 400 ∨ error.errorClass.status = 404 := by
  rcases Store.remove_eq_error_iff.1 hremove with ⟨-, rfl⟩ | ⟨-, -, rfl⟩
  · exact .inl rfl
  · exact .inr rfl

namespace Service

open Http Query

variable {service : Service} {moment : Moment} {store next : Store} {request : Request}

/-! ## Reading parts of a request -/

theorem parameter_eq_ok_iff {name raw value : String} :
    parameter name raw = .ok value ↔ Encodes raw value := by
  rw [← percentDecode?_eq_some_iff]
  unfold parameter
  cases percentDecode? raw <;> simp

theorem kindNamed_eq_ok_iff {name : String} {kind : Kind} :
    kindNamed name = .ok kind ↔ kind.NamedBy name.toLower := by
  rw [← Kind.ofName?_eq_some_iff, ← Kind.ofNameAnyCase?]
  unfold kindNamed
  cases Kind.ofNameAnyCase? name <;> simp

theorem checkList_eq_ok_iff {json : Json} {done : Unit} :
    checkList json = .ok done ↔ ∃ items, json = .array items := by
  cases json <;> simp [checkList]

theorem orDatasetError_eq_ok_iff {α : Type} {result : Except DatasetError α} {value : α} :
    orDatasetError result = .ok value ↔ result = .ok value :=
  Answer.mapError_eq_ok_iff

/-- A request announces JSON: its content type is `application/json`, or another application type
with the suffix `json`. -/
def AnnouncesJson (request : Request) : Prop :=
  ∃ name media, request.headers.get? "content-type" = some name ∧
    MediaType.read? name = some media ∧ media.type = "application" ∧
      (media.subtype = "json" ∨ media.suffix = some "json")

/-- A request brings a JSON value: it announces JSON, its body is no longer than the service takes,
and the value is what the body begins with. -/
structure Brings (service : Service) (request : Request) (value : Json) : Prop where
  announced : AnnouncesJson request
  bounded : request.body.bytes.length ≤ service.maxBodySize
  read : Json.readLeading? request.body.leadingText = some value

theorem announcesJson_iff : announcesJson request = true ↔ AnnouncesJson request := by
  unfold announcesJson AnnouncesJson
  cases request.headers.get? "content-type" with
  | none => simp
  | some name => cases hmedia : MediaType.read? name <;> simp [hmedia, MediaType.isJson]

theorem readJson_eq_ok_iff {value : Json} :
    service.readJson request = .ok value ↔ service.Brings request value := by
  constructor
  · intro hread
    unfold readJson at hread
    split at hread
    next => cases hread
    next hannounced =>
      split at hread
      next => cases hread
      next hshort =>
        split at hread
        next found hleading =>
          cases hread
          exact ⟨announcesJson_iff.1 (by simpa using hannounced), Nat.not_lt.1 hshort, hleading⟩
        next => cases hread
  · intro hbrings
    have hannounced := announcesJson_iff.2 hbrings.announced
    have hshort : ¬ service.maxBodySize < request.size := hbrings.bounded.not_gt
    rw [readJson, if_neg (by simp [hannounced]), if_neg hshort, hbrings.read]

/-! ## Success -/

/-- A request to add a dataset carries it: its parameters encode the id and a name of the kind, in
any case, and its body lists records that make the dataset. -/
structure Carries (service : Service) (request : Request) (rawId rawKind : String)
    (dataset : Dataset) : Prop where
  id_encoded : Encodes rawId dataset.id
  kind_named : ∃ name, Encodes rawKind name ∧ dataset.kind.NamedBy name.toLower
  read : ∃ items, service.Brings request (.array items) ∧
    Dataset.ofJson dataset.id dataset.kind (.array items) = .ok dataset

/-- Adding succeeds exactly if the request carries a dataset that the store takes. -/
theorem addDataset_eq_ok_iff {rawId rawKind : String} {response : Response} :
    service.addDataset store request rawId rawKind = .ok (next, response) ↔
      ∃ dataset, service.Carries request rawId rawKind dataset ∧ store.add dataset = .ok next ∧
        response = .result (textsJson next.ids) := by
  simp only [addDataset, Answer.bind_eq_ok_iff, parameter_eq_ok_iff, readJson_eq_ok_iff,
    kindNamed_eq_ok_iff, checkList_eq_ok_iff, orDatasetError_eq_ok_iff]
  constructor
  · intro hadded
    obtain ⟨id, hid, name, hname, json, hjson, kind, hkind, _, ⟨items, rfl⟩, dataset, hdataset,
      _, hadd, hend⟩ := hadded
    obtain ⟨rfl, rfl⟩ := Dataset.id_kind_of_ofJson hdataset
    cases hend
    exact ⟨dataset, ⟨hid, ⟨name, hname, hkind⟩, ⟨items, hjson, hdataset⟩⟩, hadd, rfl⟩
  · intro hadded
    obtain ⟨dataset, ⟨hid, ⟨name, hname, hkind⟩, ⟨items, hjson, hdataset⟩⟩, hadd, rfl⟩ := hadded
    exact ⟨_, hid, name, hname, _, hjson, _, hkind, (), ⟨items, rfl⟩, dataset, hdataset, next,
      hadd, rfl⟩

theorem removeDataset_eq_ok_iff {rawId : String} {response : Response} :
    removeDataset store rawId = .ok (next, response) ↔
      ∃ id, Encodes rawId id ∧ store.remove id = .ok next ∧
        response = .result (.string id) := by
  simp only [removeDataset, Answer.bind_eq_ok_iff, parameter_eq_ok_iff, orDatasetError_eq_ok_iff,
    Except.ok.injEq, Prod.mk.injEq]
  constructor
  · intro hremoved
    obtain ⟨id, hid, _, hremove, rfl, rfl⟩ := hremoved
    exact ⟨id, hid, hremove, rfl⟩
  · intro hremoved
    obtain ⟨id, hid, hremove, rfl⟩ := hremoved
    exact ⟨id, hid, next, hremove, rfl, rfl⟩

theorem runQuery_of_ok {document : Json} {output : Output}
    (hbrings : service.Brings request document)
    (hrun : Query.run service.maxRows store document = .ok output) :
    service.runQuery store request = .ok (.result (.array (output.rows.map Row.toJson))) := by
  unfold runQuery
  rw [readJson_eq_ok_iff.2 hbrings]
  change (Query.run service.maxRows store document).mapError _ >>= _ = _
  rw [hrun]
  rfl

theorem runQuery_of_error {document : Json} {error : QueryError}
    (hbrings : service.Brings request document)
    (hrun : Query.run service.maxRows store document = .error error) :
    service.runQuery store request = .error (.failed (.query error)) := by
  unfold runQuery
  rw [readJson_eq_ok_iff.2 hbrings]
  change (Query.run service.maxRows store document).mapError _ >>= _ = _
  rw [hrun]
  rfl

theorem status_of_runQuery {response : Response}
    (hrun : service.runQuery store request = .ok response) : response.status = 200 := by
  obtain ⟨_, -, hrest⟩ := Answer.bind_eq_ok_iff.1 hrun
  obtain ⟨_, -, hend⟩ := Answer.bind_eq_ok_iff.1 hrest
  cases hend
  rfl

/-! ## Refusals -/

/-- A refusal that puts the fault on the client. -/
def Refusal.OfClient (refusal : Refusal) : Prop :=
  ∀ moment, 400 ≤ (refusal.response moment).status ∧ (refusal.response moment).status < 500

theorem Refusal.ofClient_of_status {refusal : Refusal} {status : Nat}
    (hresponse : ∀ moment, (refusal.response moment).status = status)
    (hstatus : 400 ≤ status ∧ status < 500) : refusal.OfClient := by
  intro moment
  rw [hresponse]
  exact hstatus

theorem Refusal.ofClient_failed {error : ServiceError}
    (hstatus : error.errorClass.status = 400 ∨ error.errorClass.status = 404) :
    (Refusal.failed error).OfClient := by
  have hresponse : ∀ moment, ((Refusal.failed error).response moment).status =
      error.errorClass.status := fun _ => rfl
  exact Refusal.ofClient_of_status hresponse (by omega)

/-- Whatever goes wrong in a computation is the client's fault. -/
def BlamesClient {α : Type} (answer : Except Refusal α) : Prop :=
  ∀ refusal, answer = .error refusal → refusal.OfClient

namespace BlamesClient

theorem ok {α : Type} (value : α) : BlamesClient (.ok value) := by
  intro refusal hrefused
  exact nomatch hrefused

theorem error {α : Type} {refusal : Refusal} (hclient : refusal.OfClient) :
    BlamesClient (.error refusal : Except Refusal α) := by
  intro found hfound
  cases hfound
  exact hclient

theorem bind {α β : Type} {answer : Except Refusal α} {rest : α → Except Refusal β}
    (hfirst : BlamesClient answer)
    (hrest : ∀ value, answer = .ok value → BlamesClient (rest value)) :
    BlamesClient (answer >>= rest) := by
  cases answer with
  | error refusal => exact error (hfirst refusal rfl)
  | ok value => exact hrest value rfl

theorem map {α β : Type} {answer : Except Refusal α} {f : α → β} (hanswer : BlamesClient answer) :
    BlamesClient (answer.map f) := by
  cases answer with
  | error refusal => exact error (hanswer refusal rfl)
  | ok value => exact ok (f value)

theorem parameter (name raw : String) : BlamesClient (parameter name raw) := by
  unfold Service.parameter
  split
  · exact ok _
  · exact error (Refusal.ofClient_of_status (fun _ => rfl) (by decide))

theorem readJson (service : Service) (request : Request) :
    BlamesClient (service.readJson request) := by
  unfold Service.readJson
  split
  · exact error (Refusal.ofClient_of_status (fun _ => rfl) (by decide))
  · split
    · exact error (Refusal.ofClient_of_status (fun _ => rfl) (by decide))
    · split
      · exact ok _
      · exact error (Refusal.ofClient_of_status (fun _ => rfl) (by decide))

theorem kindNamed (name : String) : BlamesClient (kindNamed name) := by
  unfold Service.kindNamed
  split
  · exact ok _
  · exact error (Refusal.ofClient_of_status (fun _ => rfl) (by decide))

theorem checkList (json : Json) : BlamesClient (checkList json) := by
  unfold Service.checkList
  split
  · exact ok _
  · exact error (Refusal.ofClient_of_status (fun _ => rfl) (by decide))

theorem orDatasetError {α : Type} {result : Except DatasetError α}
    (hstatus : ∀ error, result = .error error →
      error.errorClass.status = 400 ∨ error.errorClass.status = 404) :
    BlamesClient (orDatasetError result) := by
  cases result with
  | error found => exact error (Refusal.ofClient_failed (hstatus found rfl))
  | ok value => exact ok value

end BlamesClient

theorem blamesClient_addDataset (rawId rawKind : String) :
    BlamesClient (service.addDataset store request rawId rawKind) := by
  unfold addDataset
  exact .bind (.parameter _ _) fun id _ => .bind (.parameter _ _) fun name _ =>
    .bind (.readJson _ _) fun json _ => .bind (.kindNamed _) fun kind _ =>
    .bind (.checkList _) fun _ _ =>
    .bind (.orDatasetError fun _ hread => .inl (Dataset.status_of_ofJson hread)) fun dataset _ =>
    .bind (.orDatasetError fun _ hadd => .inl (Store.status_of_add hadd)) fun next _ => .ok _

theorem blamesClient_removeDataset (rawId : String) :
    BlamesClient (removeDataset store rawId) := by
  unfold removeDataset
  exact .bind (.parameter _ _) fun id _ =>
    .bind (.orDatasetError fun _ hremove => Store.status_of_remove hremove) fun next _ => .ok _

/-- A query over a well-formed store never breaks down. -/
theorem blamesClient_runQuery (hstore : store.WellFormed) :
    BlamesClient (service.runQuery store request) := by
  unfold runQuery
  refine .bind (.readJson _ _) fun document _ => .bind ?_ fun output _ => .ok _
  cases hrun : Query.run service.maxRows store document with
  | ok output => exact .ok output
  | error failure =>
      rcases run_error_cases hstore hrun with ⟨reason, rfl⟩ | ⟨count, rfl⟩
      · exact .error (Refusal.ofClient_failed (.inl rfl))
      · exact .error (Refusal.ofClient_failed (.inl rfl))

end Service

end CampusQuery
