import CampusQuery.Dataset.Reachable
import CampusQuery.Proofs.Query.Transformations
import CampusQuery.Proofs.Record.Decoding

/-!
# Records that are written and read back

A record is read back from what it is written as, and from any JSON that presents
it: its entries in any order with others beside them, or the array of its values.
A list in which one item misses a field, gives a field a value of another type,
or is an array of another length is not read at all.
-/

namespace CampusQuery

/-- A JSON value that a field of a type can have. -/
inductive Json.Fits : FieldType → Json → Prop where
  | text (text : String) : Fits .text (.string text)
  | number (n : JsonNumber) : Fits .numeric (.number n)

namespace Record

/-- JSON that says what a record says when it is written. In an object the entries may change
places and stand among entries of no field; an array has their values alone. -/
inductive Presents (record : Record) : Json → Prop where
  | object {written other entries : List (String × Json)}
      (hwritten : record.encode = .object written)
      (hother : ∀ entry ∈ other, ∀ f : Field, f.kind = record.kind → f.bareName ≠ entry.1)
      (hperm : entries.Perm (written ++ other)) : Presents record (.object entries)
  | array {written : List (String × Json)} (hwritten : record.encode = .object written) :
      Presents record (.array (written.map Prod.snd))

/-- JSON that is no record of a kind. -/
inductive Defective (kind : Kind) (item : Json) : Prop where
  | lacks {f : Field} (hkind : f.kind = kind) (hlacks : ∀ given, ¬ f.GivenIn item given) :
      Defective kind item
  | illTyped {f : Field} {given : Json} (hkind : f.kind = kind) (hgiven : f.GivenIn item given)
      (htype : ¬ given.Fits f.fieldType) : Defective kind item
  | wrongLength {items : List Json} (hitem : item = .array items)
      (hlength : items.length ≠ kind.layout.length) : Defective kind item

variable {record : Record} {kind : Kind} {f : Field} {item : Json}

/-! ## What a record says -/

/-- The value of a field of the record's kind. -/
def value (record : Record) (f : Field) : Value := (record.get? f).getD (.text "")

theorem get?_eq_value (hkind : f.kind = record.kind) : record.get? f = some (record.value f) := by
  obtain ⟨found, hfound⟩ := Option.isSome_iff_exists.1 (get?_isSome_iff.2 hkind)
  rw [value, hfound, Option.getD_some]

theorem get?_eq_none (hkind : f.kind ≠ record.kind) : record.get? f = none := by
  rw [← Option.not_isSome_iff_eq_none, get?_isSome_iff]
  exact hkind

theorem encode_eq :
    record.encode =
      .object (record.kind.layout.map fun f => (f.bareName, encodeValue (record.value f))) := by
  have hfields : ∀ f ∈ record.kind.layout,
      (record.get? f).map (fun value => (f.bareName, encodeValue value)) =
        some (f.bareName, encodeValue (record.value f)) := by
    intro f hf
    rw [get?_eq_value (Kind.mem_layout_iff.1 hf), Option.map_some]
  rw [encode, List.filterMap_congr hfields, List.filterMap_eq_map']

/-- What a field's value is written as is read as this value. -/
theorem decodeValue_encodeValue (hkind : f.kind = record.kind) :
    decodeValue f (encodeValue (record.value f)) = .ok (record.value f) := by
  have hvalue := get?_eq_value hkind
  refine decodeValue_eq_ok_iff.2 ?_
  cases htype : f.fieldType with
  | text =>
      obtain ⟨text, htext⟩ := get?_text hkind htype
      rw [Option.some.inj (hvalue.symm.trans htext)]
      exact .inl ⟨rfl, text, rfl, rfl⟩
  | numeric =>
      obtain ⟨n, hn⟩ := get?_numeric hkind htype
      rw [Option.some.inj (hvalue.symm.trans hn)]
      exact .inr ⟨rfl, .float n, rfl, rfl⟩

/-- A record is made of its own values. -/
theorem ofFields_self : ofFields record.kind
    (fun f => ((record.get? f).bind Value.text?).getD "")
    (fun f => ((record.get? f).bind Value.number?).getD 0) = record := by
  cases record <;> rfl

theorem valueOf?_map {fields : List Field} {values : Field → Value} :
    valueOf? f (fields.map fun g => (g, values g)) =
      if f ∈ fields then some (values f) else none := by
  induction fields with
  | nil => rfl
  | cons g rest ih =>
      rw [List.map_cons, valueOf?_cons, ih]
      by_cases hsame : g = f
      · simp [hsame]
      · simp [hsame, Ne.symm hsame]

/-- Values of all fields of a record make the record, in whatever order they come. -/
theorem ofValues_eq {fields : List Field} (hfields : ∀ f, f ∈ fields ↔ f.kind = record.kind) :
    ofValues record.kind (fields.map fun f => (f, record.value f)) = record := by
  have hvalue : ∀ f, valueOf? f (fields.map fun f => (f, record.value f)) = record.get? f := by
    intro f
    rw [valueOf?_map]
    by_cases hkind : f.kind = record.kind
    · rw [if_pos ((hfields f).2 hkind), get?_eq_value hkind]
    · rw [if_neg (mt (hfields f).1 hkind), get?_eq_none hkind]
  simp only [ofValues, hvalue, ofFields_self]

/-! ## Reading what presents a record -/

theorem decodeEntries_eq {values : Field → Value} {entries : List (String × Json)}
    (hgives : ∀ entry ∈ entries, ∀ f, kind.field? entry.1 = some f →
      decodeValue f entry.2 = .ok (values f)) :
    decodeEntries kind entries =
      .ok ((entries.filterMap fun entry => kind.field? entry.1).map fun f => (f, values f)) := by
  induction entries with
  | nil => rfl
  | cons entry rest ih =>
      obtain ⟨hfirst, hrest⟩ := List.forall_mem_cons.1 hgives
      rw [decodeEntries]
      cases hfield : kind.field? entry.1 with
      | none => simp [hfield, ih hrest]
      | some f => simp [hfield, ih hrest, hfirst f hfield, bind, Except.bind]

theorem decodeItems_eq {values : Field → Value} {given : Field → Json} {position : Nat}
    {fields : List Field} (hgives : ∀ f ∈ fields, decodeValue f (given f) = .ok (values f)) :
    decodeItems kind position fields (fields.map given) =
      .ok (fields.map fun f => (f, values f)) := by
  induction fields generalizing position with
  | nil => rfl
  | cons f rest ih =>
      obtain ⟨hfirst, hrest⟩ := List.forall_mem_cons.1 hgives
      simp [decodeItems, hfirst, ih hrest, bind, Except.bind]

theorem presents_encode (record : Record) : record.Presents record.encode := by
  rw [encode_eq]
  exact .object encode_eq (by simp) (List.Perm.of_eq (List.append_nil _).symm)

/-- In what presents a record, the entry of a field has the field's value. -/
theorem entry_of_presents {entries : List (String × Json)}
    (hpresents : record.Presents (.object entries)) {entry : String × Json}
    (hentry : entry ∈ entries) (hfield : record.kind.field? entry.1 = some f) :
    entry.2 = encodeValue (record.value f) := by
  obtain ⟨hkind, hname⟩ := Kind.field?_eq_some_iff.1 hfield
  cases hpresents with
  | object hwritten hother hperm =>
      cases encode_eq.symm.trans hwritten
      rcases List.mem_append.1 (hperm.mem_iff.1 hentry) with hmem | hmem
      · obtain ⟨g, hg, rfl⟩ := List.mem_map.1 hmem
        rw [Kind.eq_of_bareName_eq (hkind.trans (Kind.mem_layout_iff.1 hg).symm) hname]
      · -- the entries beside the record's own have the name of no field
        exact absurd hname (hother entry hmem f hkind)

/-- What presents a record has entries of exactly the record's fields, and perhaps of no field. -/
theorem mem_fields_of_presents {entries : List (String × Json)}
    (hpresents : record.Presents (.object entries)) :
    f ∈ (entries.filterMap fun entry => record.kind.field? entry.1) ↔ f.kind = record.kind := by
  rw [List.mem_filterMap]
  constructor
  · rintro ⟨entry, -, hfield⟩
    exact (Kind.field?_eq_some_iff.1 hfield).1
  · intro hkind
    cases hpresents with
    | object hwritten hother hperm =>
        cases encode_eq.symm.trans hwritten
        have hentry : (f.bareName, encodeValue (record.value f)) ∈ entries :=
          hperm.mem_iff.2 (List.mem_append_left _
            (List.mem_map.2 ⟨f, Kind.mem_layout_iff.2 hkind, rfl⟩))
        exact ⟨_, hentry, Kind.field?_eq_some_iff.2 ⟨hkind, rfl⟩⟩

theorem decode_object_eq {entries : List (String × Json)} {fields : List Field}
    (hread : decodeEntries record.kind entries = .ok (fields.map fun f => (f, record.value f)))
    (hfields : ∀ f, f ∈ fields ↔ f.kind = record.kind) :
    decode record.kind (.object entries) = .ok record := by
  have hcomplete : (record.kind.layout.find? fun f =>
      (valueOf? f (fields.map fun f => (f, record.value f))).isNone) = none := by
    refine List.find?_eq_none.2 fun f hf => ?_
    rw [valueOf?_map, if_pos ((hfields f).2 (Kind.mem_layout_iff.1 hf))]
    exact Bool.false_ne_true
  simp only [decode, hread, bind, Except.bind, hcomplete]
  exact congrArg _ (ofValues_eq hfields)

/-- A record is read from any JSON that presents it. -/
theorem decode_of_presents (hpresents : record.Presents item) :
    decode record.kind item = .ok record := by
  cases item with
  | object entries =>
      have hgives : ∀ entry ∈ entries, ∀ f, record.kind.field? entry.1 = some f →
          decodeValue f entry.2 = .ok (record.value f) := by
        intro entry hentry f hfield
        rw [entry_of_presents hpresents hentry hfield]
        exact decodeValue_encodeValue (Kind.field?_eq_some_iff.1 hfield).1
      exact decode_object_eq (decodeEntries_eq hgives) fun _ => mem_fields_of_presents hpresents
  | array items =>
      cases hpresents with
      | array hwritten =>
          cases encode_eq.symm.trans hwritten
          have hgives : ∀ f ∈ record.kind.layout,
              decodeValue f (encodeValue (record.value f)) = .ok (record.value f) :=
            fun f hf => decodeValue_encodeValue (Kind.mem_layout_iff.1 hf)
          rw [decode, List.map_map, Function.comp_def, decodeItems_eq hgives]
          exact congrArg _ (ofValues_eq fun _ => Kind.mem_layout_iff)
  | _ => cases hpresents

/-! ## Reading what presents none -/

/-- An array has one place for a field. -/
theorem nodup_layout (kind : Kind) : kind.layout.Nodup := by
  cases kind <;> decide

/-- JSON gives a field at most one value. -/
theorem eq_of_givenIn {given other : Json} (hgiven : f.GivenIn item given)
    (hother : f.GivenIn item other) : given = other := by
  cases hgiven with
  | named hentry =>
      cases hother with
      | named hfound => exact Option.some.inj (hentry.symm.trans hfound)
  | placed hplace hitem =>
      cases hother with
      | placed hfound hlater =>
          have hbound := (List.getElem?_eq_some_iff.1 hplace).1
          cases (List.getElem?_inj hbound (nodup_layout _)).1 (hplace.trans hfound.symm)
          exact Option.some.inj (hitem.symm.trans hlater)

theorem length_of_decodeItems {position : Nat} {fields : List Field} {items : List Json}
    {values : List (Field × Value)}
    (hdecode : decodeItems kind position fields items = .ok values) :
    items.length = fields.length := by
  induction fields generalizing position items values with
  | nil =>
      cases items with
      | nil => rfl
      | cons item rest => exact nomatch hdecode
  | cons f fields ih =>
      cases items with
      | nil => exact nomatch hdecode
      | cons item rest =>
          obtain ⟨value, -, hrest⟩ := Query.Answer.bind_eq_ok_iff.1 hdecode
          obtain ⟨others, hothers, -⟩ := Query.Answer.bind_eq_ok_iff.1 hrest
          exact congrArg Nat.succ (ih hothers)

/-- What is read as a value of a field fits the field's type. -/
theorem fits_of_decodeValue {given : Json} {value : Value}
    (hdecode : decodeValue f given = .ok value) : given.Fits f.fieldType := by
  rcases decodeValue_eq_ok_iff.1 hdecode with ⟨htype, text, rfl, -⟩ | ⟨htype, n, rfl, -⟩
  · rw [htype]
    exact .text text
  · rw [htype]
    exact .number n

/-- What is read gives each field a value that fits, so nothing defective is read. -/
theorem Defective.not_decode (hdefective : Defective kind item) :
    decode kind item ≠ .ok record := by
  intro hdecode
  cases hdefective with
  | lacks hkind hlacks =>
      obtain ⟨given, -, hgiven, -⟩ := exists_given_of_decode hkind hdecode
      exact hlacks given hgiven
  | illTyped hkind hgiven htype =>
      obtain ⟨other, value, hother, hvalue, -⟩ := exists_given_of_decode hkind hdecode
      cases eq_of_givenIn hgiven hother
      exact htype (fits_of_decodeValue hvalue)
  | wrongLength hitem hlength =>
      subst hitem
      obtain ⟨values, hvalues, -⟩ := Query.Answer.bind_eq_ok_iff.1 hdecode
      exact hlength (length_of_decodeItems hvalues)

end Record

namespace Dataset

variable {kind : Kind} {records : List Record} {items : List Json}

theorem ofJson_of_presents (hkind : ∀ record ∈ records, record.kind = kind)
    (hfinite : ∀ record ∈ records, record.hasFiniteNumbers = true)
    (hpresents : List.Forall₂ Record.Presents records items) (id : String) :
    ofJson id kind (.array items) =
      if isValidId id then .ok ⟨id, kind, records⟩ else .error (.invalidId id) := by
  have hread : Record.decodeList kind (.array items) = .ok records := by
    refine Query.Answer.mapM_eq_ok_iff.2 (List.Forall₂.flip ?_)
    refine ((List.forall₂_and_left _ _).2 ⟨hkind, hpresents⟩).imp fun record item hitem => ?_
    rw [← hitem.1]
    exact Record.decode_of_presents hitem.2
  simp only [ofJson, hread]
  split
  next hid => exact create_eq_ok_iff.2 ⟨rfl, hid, hkind, hfinite⟩
  next hid => simp [create, checkId, hid, bind, Except.bind]

theorem ofJson_of_defective {item : Json} (hitem : item ∈ items)
    (hdefective : Record.Defective kind item) (id : String) :
    ∃ reason, ofJson id kind (.array items) = .error (.invalidRecord reason) := by
  unfold ofJson
  cases hread : Record.decodeList kind (.array items) with
  | error error => exact ⟨_, rfl⟩
  | ok records =>
      obtain ⟨record, -, hrecord⟩ :=
        Query.exists_of_mem_forall₂ (Query.Answer.mapM_eq_ok_iff.1 hread) hitem
      exact absurd hrecord hdefective.not_decode

/-- Records of a kind are read back from what they are written as, and from whatever else presents
them. One item that is no record keeps the whole list from being read. -/
theorem records_read_as_written (hkind : ∀ record ∈ records, record.kind = kind)
    (hfinite : ∀ record ∈ records, record.hasFiniteNumbers = true) (id : String) :
    ofJson id kind (.array (records.map Record.encode)) =
        (if isValidId id then .ok ⟨id, kind, records⟩ else .error (.invalidId id)) ∧
      (∀ items, List.Forall₂ Record.Presents records items →
        ofJson id kind (.array items) = ofJson id kind (.array (records.map Record.encode))) ∧
      ∀ items, (∃ item ∈ items, Record.Defective kind item) →
        ∃ reason, ofJson id kind (.array items) = .error (.invalidRecord reason) := by
  have hencode : List.Forall₂ Record.Presents records (records.map Record.encode) := by
    rw [List.forall₂_map_right_iff, List.forall₂_same]
    exact fun record _ => Record.presents_encode record
  have hwritten := ofJson_of_presents hkind hfinite hencode id
  refine ⟨hwritten, fun items hpresents => ?_, fun items hdefective => ?_⟩
  · rw [hwritten]
    exact ofJson_of_presents hkind hfinite hpresents id
  · obtain ⟨item, hitem, hdefect⟩ := hdefective
    exact ofJson_of_defective hitem hdefect id

def algebra : Record :=
  .section {
    uuid := "1"
    id := "110"
    title := "algebra"
    instructor := "smith"
    dept := "math"
    year := .ofNat 2015
    avg := .ofNat 80
    pass := .ofNat 10
    fail := .ofNat 1
    audit := .ofNat 0 }

/-- The entries that a section is written with. -/
def algebraEntries : List (String × Json) := [
  ("uuid", .string "1"),
  ("id", .string "110"),
  ("title", .string "algebra"),
  ("instructor", .string "smith"),
  ("dept", .string "math"),
  ("year", .ofBinary64 (.ofNat 2015)),
  ("avg", .ofBinary64 (.ofNat 80)),
  ("pass", .ofBinary64 (.ofNat 10)),
  ("fail", .ofBinary64 (.ofNat 1)),
  ("audit", .ofBinary64 (.ofNat 0))]

/-- A section is read from its entries backwards and from its values alone, but not without its
uuid. -/
theorem algebra_is_read_backwards :
    (∀ record ∈ [algebra, algebra], record.kind = .sections) ∧
      (∀ record ∈ [algebra, algebra], record.hasFiniteNumbers = true) ∧
      ofJson "courses" .sections (.array [
          .object (algebraEntries ++ [("room", Json.null)]).reverse,
          .array (algebraEntries.map Prod.snd)]) =
        .ok ⟨"courses", .sections, [algebra, algebra]⟩ ∧
      ∃ reason, ofJson "courses" .sections (.array [
          .object algebraEntries, .object algebraEntries.tail]) =
        .error (.invalidRecord reason) := by
  have hkind : ∀ record ∈ [algebra, algebra], record.kind = .sections := by decide
  have hfinite : ∀ record ∈ [algebra, algebra], record.hasFiniteNumbers = true := by
    decide +kernel
  have hencode : algebra.encode = .object algebraEntries := by
    simp [algebra, algebraEntries, Record.encode, Record.kind, Kind.layout, Section.layout,
      Record.get?, Section.get, Field.bareName, SectionField.bareName, Record.encodeValue]
  obtain ⟨hwritten, hpresents, hdefective⟩ := records_read_as_written hkind hfinite "courses"
  have hroom : ∀ f : Field, f.kind = algebra.kind → f.bareName ≠ "room" := by
    have hfields : ∀ f ∈ Kind.sections.fields, f.bareName ≠ "room" := by decide
    exact fun f hf => hfields f (Kind.mem_fields_iff.2 hf)
  refine ⟨hkind, hfinite, ?_, hdefective _ ⟨_, List.mem_cons_of_mem _ List.mem_cons_self, ?_⟩⟩
  · rw [hpresents, hwritten, if_pos (by decide +kernel)]
    exact .cons (.object hencode (by simpa using hroom) (List.reverse_perm _))
      (.cons (.array hencode) .nil)
  · refine .lacks (f := .section .uuid) rfl fun given hgiven => ?_
    cases hgiven with
    | named hentry => cases hentry

end Dataset

end CampusQuery
