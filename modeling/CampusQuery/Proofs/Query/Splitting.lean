import CampusQuery.Proofs.Numeric.Comparison
import CampusQuery.Proofs.Query.BooleanLaws
import CampusQuery.Proofs.Query.Ingestion
import CampusQuery.Proofs.Record.Roundtrip

/-!
# Filters that split a dataset

A number is above, equal to or below a constant, and a filter is true of a record or its negation
is. What these filters match therefore divides a dataset, since no number that is stored is a NaN
and no record lacks a field of its kind.
-/

namespace CampusQuery.Query

open Numeric

/-- The filter that compares a field with a number. -/
def compared (op : CompareOp) (key : String) (c : JsonNumber) : Json :=
  .object [(op.key, .object [(key, .number c)])]

/-- Some records are what a filter selects from a dataset of a store. The filter can be asked for,
and whatever else a document with it says, its runs make their rows of these records and count
them. -/
structure Selects (store : Store) (dataset : Dataset) (filter : Json) (matched : List Record) :
    Prop where
  asked : ∃ rest found, plan store.registry (.object (("WHERE", filter) :: rest)) = .ok found ∧
    found.datasetId = dataset.id
  matching_eq : ∀ rest found,
    plan store.registry (.object (("WHERE", filter) :: rest)) = .ok found →
    found.datasetId = dataset.id → found.matching dataset.records = matched
  run_eq : ∀ rest found maxRows output,
    plan store.registry (.object (("WHERE", filter) :: rest)) = .ok found →
    found.datasetId = dataset.id → found.run maxRows store = .ok output →
    ∃ rows, found.rows maxRows matched = .ok rows ∧
      output = ⟨found.arrange rows, dataset.records.length, matched.length⟩

/-- Lists divide another one: each is in its order, no two have an item in common, and together they
hold every item as often as it does. -/
structure Divides {α : Type} (whole : List α) (parts : List (List α)) : Prop where
  in_order : ∀ part ∈ parts, part.Sublist whole
  disjoint : parts.Pairwise List.Disjoint
  complete : parts.flatten.Perm whole

/-! ## Dividing a list -/

section Divides

variable {α κ : Type} {whole : List α} {keys : List κ} {keeps : κ → α → Bool}

theorem flatten_filters_perm
    (hdisjoint : keys.Pairwise fun p q =>
      ∀ item ∈ whole, keeps p item = true → keeps q item = false)
    (hcover : ∀ item ∈ whole, ∃ p ∈ keys, keeps p item = true) :
    (keys.map fun p => whole.filter (keeps p)).flatten.Perm whole := by
  induction keys generalizing whole with
  | nil =>
      have hnil : whole = [] := List.eq_nil_iff_forall_not_mem.2 fun item hitem => by
        simpa using hcover item hitem
      rw [hnil]
      rfl
  | cons p rest ih =>
      obtain ⟨hfirst, hrest⟩ := List.pairwise_cons.1 hdisjoint
      -- the other properties only see what the first one leaves
      have hleft : ∀ item ∈ whole.filter fun item => !keeps p item,
          item ∈ whole ∧ keeps p item = false := by
        simp
      have hsame : (rest.map fun q => whole.filter (keeps q)) =
          rest.map fun q => (whole.filter fun item => !keeps p item).filter (keeps q) := by
        refine List.map_congr_left fun q hq => ?_
        rw [List.filter_filter]
        refine List.filter_congr fun item hitem => ?_
        cases hp : keeps p item with
        | false => simp
        | true => simp [hfirst q hq item hitem hp]
      have hothers : (rest.map fun q =>
          (whole.filter fun item => !keeps p item).filter (keeps q)).flatten.Perm
            (whole.filter fun item => !keeps p item) := by
        refine ih ?_ fun item hitem => ?_
        · exact hrest.imp fun hpq item hitem => hpq item (hleft item hitem).1
        · obtain ⟨hmem, hp⟩ := hleft item hitem
          obtain ⟨q, hq, hholds⟩ := hcover item hmem
          rcases List.mem_cons.1 hq with rfl | hlater
          · exact nomatch hp.symm.trans hholds
          · exact ⟨q, hlater, hholds⟩
      rw [List.map_cons, List.flatten_cons, hsame]
      exact (hothers.append_left _).trans (List.filter_append_perm (keeps p) whole)

/-- Properties of which every item has exactly one divide a list. -/
theorem divides_filters
    (hdisjoint : keys.Pairwise fun p q =>
      ∀ item ∈ whole, keeps p item = true → keeps q item = false)
    (hcover : ∀ item ∈ whole, ∃ p ∈ keys, keeps p item = true) :
    Divides whole (keys.map fun p => whole.filter (keeps p)) where
  in_order part hpart := by
    obtain ⟨p, -, rfl⟩ := List.mem_map.1 hpart
    exact List.filter_sublist
  disjoint := by
    refine List.pairwise_map.2 (hdisjoint.imp fun hpq item hp hq => ?_)
    obtain ⟨hitem, hholds⟩ := List.mem_filter.1 hp
    exact nomatch (hpq item hitem hholds).symm.trans (List.mem_filter.1 hq).2
  complete := flatten_filters_perm hdisjoint hcover

end Divides

/-! ## What a filter selects -/

variable {store : Store} {dataset : Dataset} {filter : Json} {condition : Condition}

/-- A kind has a field, so every dataset can be asked for something. -/
theorem exists_askedOf (kind : Kind) : ∃ f, AskedOf kind [f] := by
  have hfield : ∃ f : Field, f.kind = kind := by
    cases kind
    · exact ⟨.section .avg, rfl⟩
    · exact ⟨.room .lat, rfl⟩
  obtain ⟨f, hf⟩ := hfield
  exact ⟨f, List.cons_ne_nil _ _, List.nodup_singleton f, by simpa using hf⟩

theorem exists_plan_of_writtenBy (hstore : store.WellFormed) (hmem : dataset ∈ store.datasets)
    (hwritten : condition.WrittenBy ⟨dataset.id, dataset.kind⟩ filter) :
    ∃ rest found, plan store.registry (.object (("WHERE", filter) :: rest)) = .ok found ∧
      found.datasetId = dataset.id := by
  obtain ⟨f, hasked⟩ := exists_askedOf dataset.kind
  have hcolumns := @columnsWrittenBy_fields [f] ⟨dataset.id, dataset.kind⟩
    (hstore.well_formed dataset hmem).valid_id hasked
  have hplan := Plan.ofDocument_eq_ok_iff.2 ⟨⟨dataset.id, dataset.kind⟩,
    registry_of_mem hstore hmem, .plain (.condition hwritten) (.unordered hcolumns)⟩
  exact ⟨_, _, plan_eq_ok_iff.2 hplan, rfl⟩

/-- A plan for a dataset of the store is for the kind of its records. -/
theorem kind_eq_of_plan (hstore : store.WellFormed) (hmem : dataset ∈ store.datasets)
    {document : Json} {found : Plan} (hplan : plan store.registry document = .ok found)
    (hid : found.datasetId = dataset.id) : found.kind = dataset.kind := by
  have hregistered := registered_of_plan hplan
  rw [hid, registry_of_mem hstore hmem] at hregistered
  exact (Option.some.inj hregistered).symm

/-- A plan with a written filter keeps the records that the filter's condition is true of. -/
theorem keeps_of_writtenBy (hstore : store.WellFormed) (hmem : dataset ∈ store.datasets)
    (hwritten : condition.WrittenBy ⟨dataset.id, dataset.kind⟩ filter)
    {rest : List (String × Json)} {found : Plan}
    (hplan : plan store.registry (.object (("WHERE", filter) :: rest)) = .ok found)
    (hid : found.datasetId = dataset.id) : found.Keeps fun record => condition.holds record := by
  obtain ⟨bound, -, hfound⟩ := Plan.ofDocument_eq_ok_iff.1 (plan_eq_ok_iff.1 hplan)
  obtain ⟨json, _, hdocument, hfilter, rfl⟩ := hfound.exists_where
  cases hdocument
  obtain ⟨-, keeps, hmeans, hkeeps⟩ := hfilter.exists_keeps
  rw [hid, kind_eq_of_plan hstore hmem hplan hid] at hmeans
  rwa [hmeans.unique (.condition hwritten)] at hkeeps

theorem selects_of_writtenBy (hstore : store.WellFormed) (hmem : dataset ∈ store.datasets)
    (hwritten : condition.WrittenBy ⟨dataset.id, dataset.kind⟩ filter) :
    Selects store dataset filter (dataset.records.filter fun record => condition.holds record) where
  asked := exists_plan_of_writtenBy hstore hmem hwritten
  matching_eq rest found hplan hid :=
    (keeps_of_writtenBy hstore hmem hwritten hplan hid).matching_eq dataset.records
  run_eq rest found maxRows output hplan hid hrun := by
    obtain ⟨records, rows, hrecords, hrows, houtput⟩ :=
      (keeps_of_writtenBy hstore hmem hwritten hplan hid).run_eq maxRows store output hrun
    rw [hid, Store.recordsOf?, hstore.get?_eq_some_iff.2 ⟨hmem, rfl⟩] at hrecords
    cases hrecords
    exact ⟨rows, hrows, houtput⟩

/-! ## Comparisons -/

namespace CompareOp

/-- How a value stands to the constant that an operator lets it through for. -/
def outcome : CompareOp → Ordering
  | .greater => .gt
  | .equal => .eq
  | .less => .lt

theorem outcome_injective {op other : CompareOp} (hsame : op.outcome = other.outcome) :
    op = other := by
  cases op <;> cases other <;> first | rfl | exact nomatch hsame

theorem exists_outcome (outcome : Ordering) : ∃ op : CompareOp, op.outcome = outcome := by
  cases outcome with
  | lt => exact ⟨.less, rfl⟩
  | eq => exact ⟨.equal, rfl⟩
  | gt => exact ⟨.greater, rfl⟩

theorem lies_iff {x c : Binary64} (hx : x ≠ .nan) (hc : c ≠ .nan) (op : CompareOp) :
    op.lies x c = true ↔ cmp x.place c.place = op.outcome := by
  cases op with
  | greater => exact (Binary64.isAbove_iff_place hx hc).trans (cmp_eq_gt_iff _ _).symm
  | equal => exact (Binary64.isLevel_iff_place hx hc).trans (cmp_eq_eq_iff _ _).symm
  | less => exact (Binary64.isAbove_iff_place hc hx).trans (cmp_eq_lt_iff _ _).symm

end CompareOp

theorem toBinary64_ne_nan {c : JsonNumber} (hc : c ≠ .float .nan) : c.toBinary64 ≠ .nan := by
  cases c with
  | integer value => exact Binary64.nearest_ne_nan _ _ _
  | float value =>
      rintro rfl
      exact hc rfl

/-- A record of a dataset has a number in each numeric field of its kind, and no NaN. -/
theorem exists_number_of_mem (hdataset : dataset.WellFormed) {f : Field}
    (hkind : f.kind = dataset.kind) (htype : f.fieldType = .numeric) {record : Record}
    (hrecord : record ∈ dataset.records) :
    ∃ x, record.get? f = some (.number x) ∧ x ≠ .nan := by
  obtain ⟨x, hx⟩ :=
    Record.get?_numeric (hkind.trans (hdataset.of_kind record hrecord).symm) htype
  have hfinite := Record.hasFiniteNumbers_iff.1 (hdataset.finite record hrecord) f x hx
  exact ⟨x, hx, Binary64.ne_nan_of_isFinite hfinite⟩

theorem holds_compare_iff {record : Record} {f : Field} {x c : Binary64}
    (hget : record.get? f = some (.number x)) (hx : x ≠ .nan) (hc : c ≠ .nan) (op : CompareOp) :
    (Condition.compare op f c).holds record = true ↔ cmp x.place c.place = op.outcome := by
  rw [Condition.holds, hget]
  exact op.lies_iff hx hc

theorem divides_comparisons (hdataset : dataset.WellFormed) {f : Field}
    (hkind : f.kind = dataset.kind) (htype : f.fieldType = .numeric) {c : Binary64}
    (hc : c ≠ .nan) :
    Divides dataset.records ([CompareOp.greater, .equal, .less].map fun op =>
      dataset.records.filter fun record => (Condition.compare op f c).holds record) := by
  have hdifferent : [CompareOp.greater, .equal, .less].Pairwise (· ≠ ·) := by decide
  refine @divides_filters _ _ _ _ (fun op record => (Condition.compare op f c).holds record)
    (hdifferent.imp ?_) ?_
  · intro op other hne record hrecord hholds
    obtain ⟨x, hget, hx⟩ := exists_number_of_mem hdataset hkind htype hrecord
    rw [holds_compare_iff hget hx hc] at hholds
    rw [Bool.eq_false_iff, ne_eq, holds_compare_iff hget hx hc, hholds]
    exact fun hsame => hne (CompareOp.outcome_injective hsame)
  · intro record hrecord
    obtain ⟨x, hget, hx⟩ := exists_number_of_mem hdataset hkind htype hrecord
    obtain ⟨op, hop⟩ := CompareOp.exists_outcome (cmp x.place c.place)
    refine ⟨op, ?_, (holds_compare_iff hget hx hc op).2 hop.symm⟩
    cases op <;> simp

/-! ## Negation -/

theorem divides_negation (whole : List Record) (condition : Condition) :
    Divides whole ([condition, .not condition].map fun condition =>
      whole.filter fun record => condition.holds record) := by
  have hnot : ∀ record, (Condition.not condition).holds record = !condition.holds record :=
    fun record => Condition.holds_not record condition
  refine @divides_filters _ _ _ _ (fun condition record => Condition.holds record condition) ?_ ?_
  · refine List.pairwise_pair.2 fun record _ hholds => ?_
    rw [hnot, hholds]
    rfl
  · intro record _
    cases hholds : condition.holds record with
    | true => exact ⟨condition, List.mem_cons_self, hholds⟩
    | false =>
        refine ⟨.not condition, List.mem_cons_of_mem _ List.mem_cons_self, ?_⟩
        rw [hnot, hholds]
        rfl

/-- An accepted filter has a condition, and the dataset that the document bound is its dataset. -/
theorem exists_writtenBy_of_plan (hstore : store.WellFormed) (hmem : dataset ∈ store.datasets)
    {rest : List (String × Json)} {found : Plan} (hfilled : filter ≠ .object [])
    (hplan : plan store.registry (.object (("WHERE", filter) :: rest)) = .ok found)
    (hid : found.datasetId = dataset.id) :
    ∃ condition : Condition, condition.WrittenBy ⟨dataset.id, dataset.kind⟩ filter := by
  obtain ⟨bound, -, hfound⟩ := Plan.ofDocument_eq_ok_iff.1 (plan_eq_ok_iff.1 hplan)
  obtain ⟨json, _, hdocument, hfilter, rfl⟩ := hfound.exists_where
  cases hdocument
  rw [hid, kind_eq_of_plan hstore hmem hplan hid] at hfilter
  generalize found.filter = tree at hfilter
  cases hfilter with
  | everything => exact absurd rfl hfilled
  | condition hwritten => exact ⟨_, hwritten⟩

/-! ## Literals -/

/-- A record has in a field the number nearest to the one that its JSON gives, so the filter for
equality with this very number is true of it. -/
theorem equals_given {id : String} {kind : Kind} {items : List Json}
    (hread : Dataset.ofJson id kind (.array items) = .ok dataset) {place : Nat} {item : Json}
    (hitem : items[place]? = some item) {f : Field} (hkind : f.kind = kind) {c : JsonNumber}
    (hgiven : f.GivenIn item (.number c)) :
    f.kind = dataset.kind ∧ f.fieldType = .numeric ∧ ∃ record,
      dataset.records[place]? = some record ∧
        (Condition.compare .equal f c.toBinary64).holds record = true := by
  obtain ⟨records, hdecode, hcreate⟩ := Dataset.ofJson_eq_ok_iff.1 hread
  obtain ⟨rfl, hwell⟩ := Dataset.create_eq_ok_iff.1 hcreate
  have hall : List.Forall₂ (fun item record => Record.decode kind item = .ok record)
      items records := Answer.mapM_eq_ok_iff.1 hdecode
  obtain ⟨hplace, rfl⟩ := List.getElem?_eq_some_iff.1 hitem
  have hlater : place < records.length := hall.length_eq ▸ hplace
  obtain ⟨given, value, hfound, hvalue, hget⟩ :=
    Record.exists_given_of_decode hkind (hall.get hplace hlater)
  cases Record.eq_of_givenIn hgiven hfound
  rcases Record.decodeValue_eq_ok_iff.1 hvalue with ⟨-, text, htext, -⟩ | ⟨htype, n, hn, rfl⟩
  · exact nomatch htext
  · cases hn
    obtain ⟨x, hx, hne⟩ :=
      exists_number_of_mem hwell hkind htype (List.getElem_mem hlater)
    cases hget.symm.trans hx
    refine ⟨hkind, htype, records[place], List.getElem?_eq_getElem hlater, ?_⟩
    rw [holds_compare_iff hx hne hne]
    exact cmp_self_eq_eq _

/-- What is above, equal to and below a number in a field divides a dataset, and so do the records
that a filter is true of and those that its negation is true of. The number that a record was read
from is among those that its value equals. -/
theorem comparisons_split_datasets (hstore : store.Reachable) (hmem : dataset ∈ store.datasets) :
    (∀ (f : Field) (c : JsonNumber), f.kind = dataset.kind → f.fieldType = .numeric →
      c ≠ .float .nan → ∃ greater equal less,
        Selects store dataset (compared .greater (f.qualified dataset.id) c) greater ∧
        Selects store dataset (compared .equal (f.qualified dataset.id) c) equal ∧
        Selects store dataset (compared .less (f.qualified dataset.id) c) less ∧
        Divides dataset.records [greater, equal, less]) ∧
    (∀ filter rest found, filter ≠ .object [] →
      plan store.registry (.object (("WHERE", filter) :: rest)) = .ok found →
      found.datasetId = dataset.id →
      ∃ matched others,
        Selects store dataset filter matched ∧
        Selects store dataset (negated filter) others ∧
        Divides dataset.records [matched, others]) ∧
    ∀ id kind items, Dataset.ofJson id kind (.array items) = .ok dataset →
      ∀ (place : Nat) (item : Json) (f : Field) (c : JsonNumber), items[place]? = some item →
        f.kind = kind → f.GivenIn item (.number c) →
        ∃ record matched, dataset.records[place]? = some record ∧
          Selects store dataset (compared .equal (f.qualified dataset.id) c) matched ∧
          record ∈ matched := by
  have hwell := hstore.wellFormed
  have hdataset := hwell.well_formed dataset hmem
  have hcompared : ∀ f : Field, f.kind = dataset.kind → f.fieldType = .numeric → ∀ c op,
      (Condition.compare op f c.toBinary64).WrittenBy ⟨dataset.id, dataset.kind⟩
        (compared op (f.qualified dataset.id) c) := by
    intro f hkind htype c op
    exact .compare (@refers_qualified ⟨dataset.id, dataset.kind⟩ f hdataset.valid_id hkind) htype
  refine ⟨?_, ?_, ?_⟩
  · intro f c hkind htype hc
    exact ⟨_, _, _, selects_of_writtenBy hwell hmem (hcompared f hkind htype c .greater),
      selects_of_writtenBy hwell hmem (hcompared f hkind htype c .equal),
      selects_of_writtenBy hwell hmem (hcompared f hkind htype c .less),
      divides_comparisons hdataset hkind htype (toBinary64_ne_nan hc)⟩
  · intro filter rest found hfilled hplan hid
    obtain ⟨condition, hwritten⟩ := exists_writtenBy_of_plan hwell hmem hfilled hplan hid
    exact ⟨_, _, selects_of_writtenBy hwell hmem hwritten,
      selects_of_writtenBy hwell hmem (.not hwritten), divides_negation dataset.records condition⟩
  · intro id kind items hread place item f c hitem hkind hgiven
    obtain ⟨hfield, htype, record, hrecord, hholds⟩ := equals_given hread hitem hkind hgiven
    exact ⟨record, _, hrecord,
      selects_of_writtenBy hwell hmem (hcompared f hfield htype c .equal),
      List.mem_filter.2 ⟨List.mem_of_getElem? hrecord, hholds⟩⟩

/-- A hall is found by the number of its seats as its JSON writes it, which no binary64 number
equals. -/
theorem hall_found_by_its_seats :
    (⟨[hall]⟩ : Store).Reachable ∧ hall ∈ (⟨[hall]⟩ : Store).datasets ∧
      (∃ greater equal less,
        Selects ⟨[hall]⟩ hall (compared .greater "halls_seats" (.integer 50)) greater ∧
        Selects ⟨[hall]⟩ hall (compared .equal "halls_seats" (.integer 50)) equal ∧
        Selects ⟨[hall]⟩ hall (compared .less "halls_seats" (.integer 50)) less ∧
        Divides hall.records [greater, equal, less]) ∧
      (∃ matched others,
        Selects ⟨[hall]⟩ hall (compared .less "halls_seats" (.integer 50)) matched ∧
        Selects ⟨[hall]⟩ hall (negated (compared .less "halls_seats" (.integer 50))) others ∧
        Divides hall.records [matched, others]) ∧
      ∃ record matched, hall.records[0]? = some record ∧
        Selects ⟨[hall]⟩ hall (compared .equal "halls_seats" (.integer 9007199254740993)) matched ∧
        record ∈ matched := by
  have hread : Dataset.ofJson "halls" .rooms (.array [hallJson]) = .ok hall := by decide +kernel
  obtain ⟨records, -, hcreate⟩ := Dataset.ofJson_eq_ok_iff.1 hread
  have hadd : Store.empty.add hall = .ok ⟨[hall]⟩ :=
    Store.add_eq_ok_iff.2 ⟨by simp [Store.empty, Store.ids], by simp [hall], rfl⟩
  have hstore : (⟨[hall]⟩ : Store).Reachable := .add .empty hcreate hadd
  have hmem : hall ∈ (⟨[hall]⟩ : Store).datasets := List.mem_cons_self
  have hseats : (Field.room .seats).GivenIn hallJson (.number (.integer 9007199254740993)) :=
    .named (by rfl)
  obtain ⟨hcomparison, hnegation, hliteral⟩ := comparisons_split_datasets hstore hmem
  obtain ⟨greater, equal, less, hgreater, hequal, hless, hdivides⟩ :=
    hcomparison (.room .seats) (.integer 50) rfl rfl (by simp)
  obtain ⟨rest, found, hplan, hid⟩ := hless.asked
  exact ⟨hstore, hmem, ⟨greater, equal, less, hgreater, hequal, hless, hdivides⟩,
    hnegation _ rest found (by simp [compared]) hplan hid,
    hliteral _ _ _ hread 0 hallJson (.room .seats) _ rfl rfl hseats⟩

end CampusQuery.Query
