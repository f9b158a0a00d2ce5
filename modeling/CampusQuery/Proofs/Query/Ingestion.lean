import CampusQuery.Proofs.Dataset.History
import CampusQuery.Proofs.Query.FiniteCells
import CampusQuery.Proofs.Record.Decoding

/-!
# What is ingested is what a query returns

Every dataset of a store can be asked for any of its fields by their qualified
names, and is returned record by record. A dataset that was just added is thus
returned with the values that its JSON gave.
-/

namespace CampusQuery.Query

variable {id : String} {kind : Kind} {fields : List Field} {store : Store} {dataset : Dataset}

/-- The query for some fields of every record of a dataset. -/
def fieldsQuery (id : String) (fields : List Field) : Json :=
  .object [("WHERE", .object []),
    ("OPTIONS", .object [("COLUMNS", .array (fields.map fun f => .string (f.qualified id)))])]

/-- The column of a field under its qualified name. -/
def fieldColumn (id : String) (f : Field) : Column := ⟨f.qualified id, .field f⟩

def fieldsPlan (id : String) (kind : Kind) (fields : List Field) : Plan where
  datasetId := id
  kind := kind
  filter := none
  columns := fields.map (fieldColumn id)
  order := none
  transform := .none

/-- Fields to ask for: one at least, each of them once, all of a kind. -/
structure AskedOf (kind : Kind) (fields : List Field) : Prop where
  ne_nil : fields ≠ []
  nodup : fields.Nodup
  of_kind : ∀ f ∈ fields, f.kind = kind

/-- A row has exactly one cell for each field, in order and under its qualified name, and holds in
it a value of the field. -/
def Row.Shows (row : Row) (id : String) (fields : List Field) (holds : Field → Value → Prop) :
    Prop :=
  List.Forall₂ (fun f cell => cell.1 = f.qualified id ∧ holds f cell.2) fields row.cells

/-- Asked for any fields of the kind, a store accepts the query for an id and returns one row per
item, in order, with the values that the item has in these fields. -/
def Returns {α : Type} (store : Store) (id : String) (kind : Kind) (items : List α)
    (holds : α → Field → Value → Prop) : Prop :=
  ∀ fields, AskedOf kind fields →
    (∃ found, plan store.registry (fieldsQuery id fields) = .ok found) ∧
    ∀ maxRows, items.length ≤ maxRows → ∃ rows,
      run maxRows store (fieldsQuery id fields) = .ok ⟨rows, items.length, items.length⟩ ∧
      List.Forall₂ (fun item row => row.Shows id fields (holds item)) items rows

/-! ## The query for fields is accepted -/

theorem refers_qualified {bound : Bound} {f : Field} (hid : isValidId bound.datasetId = true)
    (hkind : f.kind = bound.kind) : bound.Refers (f.qualified bound.datasetId) f := by
  rw [isValidId, Bool.and_eq_true, Bool.not_eq_true', Bool.not_eq_true'] at hid
  refine ⟨hkind, rfl, ?_, hid.2⟩
  -- the empty text is blank
  intro hempty
  rw [hempty] at hid
  exact absurd hid.1 (by decide)

/-- The qualified names of fields are columns. -/
theorem columnsWrittenBy_fields {bound : Bound} (hid : isValidId bound.datasetId = true)
    (hasked : AskedOf bound.kind fields) :
    ColumnsWrittenBy bound none (fields.map (fieldColumn bound.datasetId))
      (.array (fields.map fun f => .string (f.qualified bound.datasetId))) := by
  have hrefers : ∀ f ∈ fields, bound.Refers (f.qualified bound.datasetId) f :=
    fun f hf => refers_qualified hid (hasked.of_kind f hf)
  exact {
    spelled := by simp [fieldColumn]
    ne_nil := by simpa using hasked.ne_nil
    named := by
      intro column hcolumn
      obtain ⟨f, hf, rfl⟩ := List.mem_map.1 hcolumn
      exact .reference (hrefers f hf)
    distinct_names := by
      rw [List.map_map]
      refine hasked.nodup.map_on fun f hf g hg hsame => ?_
      have hspelled : f.qualified bound.datasetId = g.qualified bound.datasetId := hsame
      exact (hrefers f hf).unique (hspelled ▸ hrefers g hg)
    distinct_sources := by
      rw [List.map_map]
      exact hasked.nodup.map fun f g hsame => ColumnSource.field.inj hsame }

theorem fieldsPlan_writtenBy {bound : Bound} (hid : isValidId bound.datasetId = true)
    (hasked : AskedOf bound.kind fields) :
    (fieldsPlan bound.datasetId bound.kind fields).WrittenBy bound
      (fieldsQuery bound.datasetId fields) :=
  .plain .everything (.unordered (columnsWrittenBy_fields hid hasked))

theorem registry_of_mem (hstore : store.WellFormed) (hmem : dataset ∈ store.datasets) :
    store.registry dataset.id = some dataset.kind := by
  rw [Store.registry, Store.kindOf?, hstore.get?_eq_some_iff.2 ⟨hmem, rfl⟩]
  rfl

theorem plan_fieldsQuery (hstore : store.WellFormed) (hmem : dataset ∈ store.datasets)
    (hasked : AskedOf dataset.kind fields) :
    plan store.registry (fieldsQuery dataset.id fields) =
      .ok (fieldsPlan dataset.id dataset.kind fields) :=
  plan_eq_ok_iff.2 (Plan.ofDocument_eq_ok_iff.2 ⟨⟨dataset.id, dataset.kind⟩,
    registry_of_mem hstore hmem,
    fieldsPlan_writtenBy (hstore.well_formed dataset hmem).valid_id hasked⟩)

/-! ## It returns the records -/

theorem cell_of_fieldColumn {record : Record} {f : Field} {cell : String × Value}
    (hcell : recordCell record (fieldColumn id f) = .ok cell) :
    cell.1 = f.qualified id ∧ record.get? f = some cell.2 := by
  obtain ⟨value, hvalue, hend⟩ := Answer.bind_eq_ok_iff.1 hcell
  cases hend
  exact ⟨rfl, readField_eq_ok_iff.1 hvalue⟩

/-- A row shows what its record has in the fields. -/
theorem shows_of_recordRow {record : Record} {row : Row}
    (hnodup : ((fieldsPlan id kind fields).columns.map Column.name).Nodup)
    (hrow : recordRow (fieldsPlan id kind fields) record = .ok row) :
    row.Shows id fields fun f value => record.get? f = some value := by
  obtain ⟨cells, hcells, hend⟩ := Answer.bind_eq_ok_iff.1 hrow
  cases hend
  have hall := Answer.mapM_eq_ok_iff.1 hcells
  rw [Row.Shows, cells_ofCells hnodup (hall.imp fun _ _ => name_of_recordCell)]
  exact (List.forall₂_map_left_iff.1 hall).imp fun _ _ => cell_of_fieldColumn

/-- A dataset of a store is returned record by record. -/
theorem returns_records (hstore : store.WellFormed) (hmem : dataset ∈ store.datasets) :
    Returns store dataset.id dataset.kind dataset.records
      fun record f value => record.get? f = some value := by
  intro fields hasked
  have hplan := plan_fieldsQuery hstore hmem hasked
  have hproper := proper_of_plan hplan
  have hkind := (hstore.well_formed dataset hmem).of_kind
  refine ⟨⟨_, hplan⟩, fun maxRows hcap => ?_⟩
  obtain ⟨rows, hrows⟩ := Answer.exists_mapM fun record hrecord =>
    hproper.exists_recordRow rfl (hkind record hrecord)
  have hmade : (fieldsPlan dataset.id dataset.kind fields).rows maxRows dataset.records =
      .ok rows := by
    rw [Plan.rows_of_plain rfl, if_neg (Nat.not_lt.2 hcap), hrows]
    rfl
  have hrun : run maxRows store (fieldsQuery dataset.id fields) =
      .ok ⟨rows, dataset.records.length, dataset.records.length⟩ := by
    unfold run
    rw [hplan]
    change (fieldsPlan dataset.id dataset.kind fields).run maxRows store = _
    rw [Plan.run_of_present _ maxRows (hstore.get?_eq_some_iff.2 ⟨hmem, rfl⟩)]
    exact Plan.runOn_eq_ok_iff.2 ⟨Plan.checkKind_eq_ok hkind, rows, hmade, rfl⟩
  exact ⟨rows, hrun, (Answer.mapM_eq_ok_iff.1 hrows).imp fun _ _ =>
    shows_of_recordRow hproper.distinct_names⟩

/-! ## The records are what their JSON gives -/

/-- A JSON value gives a value for a field of its record. -/
def GivesValue (item : Json) (f : Field) (value : Value) : Prop :=
  ∃ given, f.GivenIn item given ∧ value.GivenBy given

theorem givesValue_of_decode {item : Json} {record : Record} {f : Field} {value : Value}
    (hdecode : Record.decode kind item = .ok record) (hkind : record.kind = kind)
    (hfinite : record.hasFiniteNumbers = true) (hvalue : record.get? f = some value) :
    GivesValue item f value := by
  have hfield : f.kind = record.kind := Record.get?_isSome_iff.1 (by rw [hvalue]; rfl)
  obtain ⟨given, read, hgiven, hread, hget⟩ :=
    Record.exists_given_of_decode (hfield.trans hkind) hdecode
  cases hget.symm.trans hvalue
  refine ⟨given, hgiven, Record.givenBy_of_decodeValue hread ?_⟩
  rintro x rfl
  exact Record.hasFiniteNumbers_iff.1 hfinite f x hget

/-- A dataset that was read from JSON is returned with the values that the JSON gives. -/
theorem returns_given {items : List Json} (hstore : store.WellFormed)
    (hmem : dataset ∈ store.datasets)
    (hread : Dataset.ofJson id kind (.array items) = .ok dataset) :
    Returns store id kind items GivesValue := by
  obtain ⟨records, hdecode, hcreate⟩ := Dataset.ofJson_eq_ok_iff.1 hread
  obtain ⟨rfl, hwell⟩ := Dataset.create_eq_ok_iff.1 hcreate
  have hitems : List.Forall₂ (fun item record => Record.decode kind item = .ok record)
      items records := Answer.mapM_eq_ok_iff.1 hdecode
  intro fields hasked
  obtain ⟨hplan, hrun⟩ := returns_records hstore hmem fields hasked
  refine ⟨hplan, fun maxRows hcap => ?_⟩
  rw [hitems.length_eq] at hcap ⊢
  obtain ⟨rows, hrows, hshown⟩ := hrun maxRows hcap
  have hchecked : ∀ record ∈ records, record.kind = kind ∧ record.hasFiniteNumbers = true :=
    fun record hrecord => ⟨hwell.of_kind record hrecord, hwell.finite record hrecord⟩
  refine ⟨rows, hrows, forall₂_trans ?_ hitems
    ((List.forall₂_and_left _ _).2 ⟨hchecked, hshown⟩)⟩
  rintro item record row hitem ⟨⟨hkind, hfinite⟩, hshows⟩
  exact hshows.imp fun f cell hcell =>
    ⟨hcell.1, givesValue_of_decode hitem hkind hfinite hcell.2⟩

/-- A dataset read from JSON under a new id can be added, and asked for any of its fields the store
then returns what the JSON gave, record by record and in order. Every dataset of a store is
returned in this way. -/
theorem ingested_is_returned (hstore : store.Reachable) :
    (∀ id kind items dataset, id ∉ store.ids → items ≠ [] →
      Dataset.ofJson id kind (.array items) = .ok dataset →
      ∃ next, store.add dataset = .ok next ∧ Returns next id kind items GivesValue) ∧
    ∀ dataset ∈ store.datasets, Returns store dataset.id dataset.kind dataset.records
      fun record f value => record.get? f = some value := by
  refine ⟨?_, fun dataset hmem => returns_records hstore.wellFormed hmem⟩
  intro id kind items dataset hnew hfilled hread
  obtain ⟨records, hdecode, hcreate⟩ := Dataset.ofJson_eq_ok_iff.1 hread
  obtain ⟨hdataset, -⟩ := Dataset.create_eq_ok_iff.1 hcreate
  have hlength : items.length = records.length := (Answer.mapM_eq_ok_iff.1 hdecode).length_eq
  have hrecords : dataset.records ≠ [] := by
    rw [hdataset]
    rintro rfl
    exact hfilled (List.eq_nil_of_length_eq_zero hlength)
  have hid : dataset.id = id := by rw [hdataset]
  have hadd : store.add dataset = .ok ⟨store.datasets ++ [dataset]⟩ :=
    Store.add_eq_ok_iff.2 ⟨hid ▸ hnew, hrecords, rfl⟩
  have hnext := (hstore.add hcreate hadd).wellFormed
  exact ⟨_, hadd, returns_given hnext (List.mem_append_right _ List.mem_cons_self) hread⟩

/-- A room as JSON, its keys in another order than it is written in. Its seats are no binary64
number. -/
def hallJson : Json :=
  .object [
    ("type", .string "Tiered Large Group"),
    ("seats", .number (.integer 9007199254740993)),
    ("lat", .number (.integer 49)),
    ("lon", .number (.integer (-123))),
    ("number", .string "100"),
    ("name", .string "HALL_100"),
    ("shortname", .string "HALL"),
    ("fullname", .string "The Hall"),
    ("address", .string "1 Main Mall"),
    ("furniture", .string "Fixed"),
    ("href", .string "http://rooms/hall")]

def hall : Dataset where
  id := "halls"
  kind := .rooms
  records := [.room {
    fullname := "The Hall"
    shortname := "HALL"
    number := "100"
    name := "HALL_100"
    address := "1 Main Mall"
    lat := .ofNat 49
    lon := -.ofNat 123
    seats := .ofNat 9007199254740992
    type := "Tiered Large Group"
    furniture := "Fixed"
    href := "http://rooms/hall" }]

theorem hall_is_returned :
    (storeOf [.ofNat 90]).Reachable ∧ "halls" ∉ (storeOf [.ofNat 90]).ids ∧
      Dataset.ofJson "halls" .rooms (.array [hallJson]) = .ok hall ∧
      ∃ next, (storeOf [.ofNat 90]).add hall = .ok next ∧
        Returns next "halls" .rooms [hallJson] GivesValue := by
  have hstore : (storeOf [.ofNat 90]).Reachable :=
    reachable_storeOf_singleton (by decide +kernel)
  have hnew : "halls" ∉ (storeOf [.ofNat 90]).ids := by simp [storeOf, Store.ids]
  have hread : Dataset.ofJson "halls" .rooms (.array [hallJson]) = .ok hall := by decide +kernel
  exact ⟨hstore, hnew, hread,
    (ingested_is_returned hstore).1 _ _ _ _ hnew (List.cons_ne_nil _ _) hread⟩

end CampusQuery.Query
