import CampusQuery.Proofs.Query.Variants

/-!
# Grouped queries in other words

The parts of a document with a transformation may be written down in more than
one way: group keys, apply rules and columns in another order, group keys also
more or less often, and a column of a group field by its bare name. However they
are written, the document is accepted and its plan has the same answers.
-/

namespace CampusQuery.Query

variable {registry : Registry} {bound : Bound}

/-- A document with a transformation, part by part. -/
structure GroupedQuery where
  filter : Json
  columns : List String
  order : Option Json
  group : List String
  apply : List Json

namespace GroupedQuery

def options (query : GroupedQuery) : Json :=
  .object (("COLUMNS", .array (query.columns.map .string)) ::
    query.order.toList.map fun order => ("ORDER", order))

def transformations (query : GroupedQuery) : Json :=
  .object [("GROUP", .array (query.group.map .string)), ("APPLY", .array query.apply)]

def toJson (query : GroupedQuery) : Json :=
  .object [("WHERE", query.filter), ("OPTIONS", query.options),
    ("TRANSFORMATIONS", query.transformations)]

theorem transforms_toJson (query : GroupedQuery) : Transforms query.toJson :=
  ⟨_, rfl, by simp⟩

theorem map_string_inj {first second : List String} :
    first.map Json.string = second.map Json.string ↔ first = second :=
  List.map_inj_right fun _ _ => Json.string.inj

theorem toJson_injective {first second : GroupedQuery} (hsame : first.toJson = second.toJson) :
    first = second := by
  obtain ⟨filter, columns, order, group, apply⟩ := first
  obtain ⟨filter', columns', order', group', apply'⟩ := second
  simp only [toJson, options, transformations, Json.object.injEq, List.cons.injEq, Prod.mk.injEq,
    Json.array.injEq, map_string_inj, true_and, and_true] at hsame
  obtain ⟨rfl, ⟨rfl, horder⟩, rfl, rfl⟩ := hsame
  have horders : order = order' := by
    cases order with
    | none =>
        cases order' with
        | none => rfl
        | some => simp at horder
    | some =>
        cases order' with
        | none => simp at horder
        | some => simpa using horder
  rw [horders]

end GroupedQuery

/-! ## Renaming columns -/

/-- A renaming in the value of an `ORDER`: of the one column name or of those under its keys. -/
def renameOrder (rename : String → String) : Json → Json
  | .string key => .string (rename key)
  | .object entries => .object (entries.map fun entry =>
      match entry with
      | ("keys", .array items) => ("keys", .array (items.map fun
          | .string key => .string (rename key)
          | item => item))
      | entry => entry)
  | order => order

theorem OrderSpec.WrittenBy.mono {names others : List String} {order : OrderSpec} {json : Json}
    (hwritten : order.WrittenBy names json) (hknown : ∀ key, key ∈ names → key ∈ others) :
    order.WrittenBy others json := by
  cases hwritten with
  | key hkey => exact .key (hknown _ hkey)
  | directed hfilled hkeys hperm =>
      exact .directed hfilled (fun key hkey => hknown key (hkeys key hkey)) hperm

theorem OrderSpec.WrittenBy.rename {names : List String} {order : OrderSpec} {json : Json}
    (hwritten : order.WrittenBy names json) (rename : String → String) :
    OrderSpec.WrittenBy (names.map rename) ⟨order.keys.map rename, order.direction⟩
      (renameOrder rename json) := by
  cases hwritten with
  | key hkey => exact .key (List.mem_map_of_mem hkey)
  | @directed keys direction entries hfilled hkeys hperm =>
      refine .directed (by simpa using hfilled) ?_ ?_
      · intro key hkey
        obtain ⟨old, hold, rfl⟩ := List.mem_map.1 hkey
        exact List.mem_map_of_mem (hkeys old hold)
      · refine (hperm.map _).trans (.of_eq ?_)
        simp [Function.comp_def]

/-- The bare name of a field in place of a reference to it. -/
def bareFor (datasetId : String) (field : Field) (name : String) : String :=
  if name = field.qualified datasetId then field.bareName else name

/-- Other words for a grouped query over a dataset. -/
inductive Rephrases (datasetId : String) : GroupedQuery → GroupedQuery → Prop where
  /-- Group keys change places, come again or come once less. -/
  | group {query : GroupedQuery} {keys : List String} :
      (∀ key, key ∈ keys ↔ key ∈ query.group) →
      Rephrases datasetId query { query with group := keys }
  | apply {query : GroupedQuery} {items : List Json} : items.Perm query.apply →
      Rephrases datasetId query { query with apply := items }
  | columns {query : GroupedQuery} {names : List String} : names.Perm query.columns →
      Rephrases datasetId query { query with columns := names }
  | bare {query : GroupedQuery} (field : Field) :
      Rephrases datasetId query { query with
        columns := query.columns.map (bareFor datasetId field)
        order := query.order.map (renameOrder (bareFor datasetId field)) }
  | trans {first second third : GroupedQuery} : Rephrases datasetId first second →
      Rephrases datasetId second third → Rephrases datasetId first third

/-! ## What a grouped query writes -/

/-- The plan that a grouped query writes while a dataset is bound. -/
structure GroupedQuery.Writes (bound : Bound) (query : GroupedQuery) (plan : Plan) : Prop where
  datasetId : plan.datasetId = bound.datasetId
  kind : plan.kind = bound.kind
  filter : FilterWrittenBy bound plan.filter query.filter
  group_ne_nil : query.group ≠ []
  group : List.Forall₂ (fun field key => bound.Refers key field) plan.transform.group query.group
  apply : List.Forall₂ (ApplyRule.WrittenBy bound) plan.transform.apply query.apply
  distinct_rules : (plan.transform.apply.map ApplyRule.name).Nodup
  apart : ∀ rule ∈ plan.transform.apply, rule.name ∉ plan.transform.group.map Field.bareName
  columns : ColumnsWrittenBy bound (some plan.transform) plan.columns
    (.array (query.columns.map .string))
  order : Option.Rel (OrderSpec.WrittenBy plan.columnNames) plan.order query.order
  sources : ∀ source,
    source ∈ plan.columns.map Column.source ↔ source ∈ plan.transform.sources

theorem optionsWrittenBy_iff {query : GroupedQuery} {transform : Option Transform}
    {columns : List Column} {order : Option OrderSpec} :
    OptionsWrittenBy bound transform columns order query.options ↔
      ColumnsWrittenBy bound transform columns (.array (query.columns.map .string)) ∧
        Option.Rel (OrderSpec.WrittenBy (columns.map Column.name)) order query.order := by
  unfold GroupedQuery.options
  constructor
  · intro hwritten
    generalize hjson : Json.object _ = json at hwritten
    cases hwritten with
    | unordered hcolumns =>
        obtain ⟨rfl, hnone⟩ : Json.array (query.columns.map .string) = _ ∧ query.order = none := by
          simpa using hjson
        rw [hnone]
        exact ⟨hcolumns, .none⟩
    | @ordered spec _ written hcolumns hspec =>
        obtain ⟨rfl, hsome⟩ :
            Json.array (query.columns.map .string) = _ ∧ query.order = some written := by
          cases horder : query.order with
          | none => simp [horder] at hjson
          | some => simpa [horder] using hjson
        rw [hsome]
        exact ⟨hcolumns, .some hspec⟩
  · intro hwritten
    obtain ⟨hcolumns, horder⟩ := hwritten
    generalize query.order = written at horder
    cases horder with
    | none => exact .unordered hcolumns
    | some hspec => exact .ordered hcolumns hspec

theorem transformWrittenBy_iff {query : GroupedQuery} {transform : Transform} :
    transform.WrittenBy bound query.transformations ↔
      query.group ≠ [] ∧
      List.Forall₂ (fun field key => bound.Refers key field) transform.group query.group ∧
      List.Forall₂ (ApplyRule.WrittenBy bound) transform.apply query.apply ∧
      (transform.apply.map ApplyRule.name).Nodup ∧
      ∀ rule ∈ transform.apply, rule.name ∉ transform.group.map Field.bareName := by
  constructor
  · intro hwritten
    generalize hjson : query.transformations = json at hwritten
    cases hwritten with
    | groupApply hfilled hgroup happly hnodup hapart =>
        simp only [GroupedQuery.transformations, Json.object.injEq, List.cons.injEq,
          Prod.mk.injEq, Json.array.injEq, GroupedQuery.map_string_inj, true_and,
          and_true] at hjson
        obtain ⟨rfl, rfl⟩ := hjson
        exact ⟨hfilled, hgroup, happly, hnodup, hapart⟩
  · intro hwritten
    obtain ⟨hfilled, hgroup, happly, hnodup, hapart⟩ := hwritten
    exact .groupApply hfilled hgroup happly hnodup hapart

theorem writtenBy_toJson_iff {query : GroupedQuery} {plan : Plan} :
    plan.WrittenBy bound query.toJson ↔ query.Writes bound plan := by
  constructor
  · intro hwritten
    generalize hjson : query.toJson = json at hwritten
    cases hwritten with
    | plain => simp [GroupedQuery.toJson] at hjson
    | transformed hfilter htransform hoptions hsources =>
        simp only [GroupedQuery.toJson, Json.object.injEq, List.cons.injEq, Prod.mk.injEq,
          true_and, and_true] at hjson
        obtain ⟨rfl, rfl, rfl⟩ := hjson
        obtain ⟨hfilled, hgroup, happly, hnodup, hapart⟩ := transformWrittenBy_iff.1 htransform
        obtain ⟨hcolumns, horder⟩ := optionsWrittenBy_iff.1 hoptions
        exact ⟨rfl, rfl, hfilter, hfilled, hgroup, happly, hnodup, hapart, hcolumns, horder,
          hsources⟩
  · intro hwrites
    have htransform := transformWrittenBy_iff.2 ⟨hwrites.group_ne_nil, hwrites.group,
      hwrites.apply, hwrites.distinct_rules, hwrites.apart⟩
    have hoptions := optionsWrittenBy_iff.2 ⟨hwrites.columns, hwrites.order⟩
    have hwritten := Plan.WrittenBy.transformed hwrites.filter htransform hoptions hwrites.sources
    rw [← hwrites.datasetId, ← hwrites.kind] at hwritten
    exact hwritten

/-- Every document with a transformation is a grouped query. -/
theorem Plan.WrittenBy.exists_query {document : Json} {plan : Plan}
    (hwritten : plan.WrittenBy bound document) (htransforms : Transforms document) :
    ∃ query : GroupedQuery, document = query.toJson := by
  obtain ⟨entries, hentries, hkey⟩ := htransforms
  cases hwritten with
  | plain =>
      cases hentries
      exact absurd hkey (by simp)
  | @transformed filter transform columns order written _ _ _ htransform hoptions _ =>
      cases htransform with
      | @groupApply keys _ rules =>
          cases hoptions with
          | unordered hcolumns =>
              refine ⟨⟨written, columns.map Column.name, none, keys, rules⟩, ?_⟩
              rw [hcolumns.spelled]
              simp [GroupedQuery.toJson, GroupedQuery.options, GroupedQuery.transformations]
          | @ordered spec _ value hcolumns _ =>
              refine ⟨⟨written, columns.map Column.name, some value, keys, rules⟩, ?_⟩
              rw [hcolumns.spelled]
              simp [GroupedQuery.toJson, GroupedQuery.options, GroupedQuery.transformations]

/-- A name goes on standing for its source as long as no part of the transformation is lost. -/
theorem ColumnSource.NamedBy.mono {transform other : Transform} {source : ColumnSource}
    {name : String} (hnamed : source.NamedBy bound (some transform) name)
    (hgroup : ∀ field ∈ transform.group, field ∈ other.group)
    (happly : ∀ rule ∈ transform.apply, rule ∈ other.apply) :
    source.NamedBy bound (some other) name := by
  cases hnamed with
  | reference hrefers => exact .reference hrefers
  | applied hknown hrule =>
      cases hknown
      exact .applied rfl (happly _ hrule)
  | grouped hknown hfield =>
      cases hknown
      exact .grouped rfl (hgroup _ hfield)

theorem mem_iff_of_refers {fields : List Field} {keys : List String}
    (hall : List.Forall₂ (fun field key => bound.Refers key field) fields keys) {field : Field} :
    field ∈ fields ↔ ∃ key ∈ keys, bound.Refers key field := by
  constructor
  · intro hfield
    exact exists_of_mem_forall₂ hall hfield
  · intro hkey
    obtain ⟨key, hkey, hrefers⟩ := hkey
    obtain ⟨other, hother, hsame⟩ := exists_of_mem_forall₂ hall.flip hkey
    rw [hrefers.unique hsame]
    exact hother

namespace GroupedQuery.Writes

variable {query : GroupedQuery} {plan : Plan}

theorem columnNames (hwrites : query.Writes bound plan) : plan.columnNames = query.columns := by
  have hspelled : query.columns.map Json.string = plan.columnNames.map Json.string := by
    rw [Json.array.inj hwrites.columns.spelled, Plan.columnNames, List.map_map]
    rfl
  exact (map_string_inj.1 hspelled).symm

theorem grouped (hwrites : query.Writes bound plan) : plan.Grouped :=
  (writtenBy_toJson_iff.2 hwrites).grouped query.transforms_toJson

theorem order_known (hwrites : query.Writes bound plan) :
    ∀ order ∈ plan.order, ∀ key ∈ order.keys, key ∈ plan.columnNames := by
  have horder := hwrites.order
  intro order hsome
  rw [Option.mem_def.1 hsome] at horder
  generalize query.order = written at horder
  cases horder with
  | some hspec =>
      cases hspec with
      | key hkey => simpa using hkey
      | directed _ hkeys => exact hkeys

theorem answersAs {other : GroupedQuery} {again : Plan} {rename : String → String}
    (hwrites : query.Writes bound plan) (hother : other.Writes bound again)
    (hvariant : plan.Variant rename again) : again.AnswersAs plan :=
  hvariant.answersAs hwrites.grouped hother.grouped hwrites.order_known

/-! ## Names beside each other -/

/-- A column with a name that refers to a field stands for a group field of that bare name. -/
theorem exists_group_of_qualified (hwrites : query.Writes bound plan) {column : Column}
    (hcolumn : column ∈ plan.columns) {field : Field}
    (hname : column.name = field.qualified bound.datasetId) :
    ∃ known ∈ plan.transform.group, column.source = .field known ∧
      known.bareName = field.bareName := by
  have hnamed := hwrites.columns.named column hcolumn
  have hsep : hasSeparator column.name = true := hname ▸ field.hasSeparator_qualified _
  have hsource := (hwrites.sources column.source).1 (List.mem_map_of_mem hcolumn)
  generalize column.source = source at hnamed hsource
  generalize column.name = name at hnamed hname hsep
  cases hnamed with
  | @reference _ known hrefers =>
      refine ⟨known, by simpa [Transform.sources] using hsource, rfl, ?_⟩
      have hspelled := hrefers.spelled.symm.trans hname
      simpa [Field.qualified, ← String.toList_inj, String.toList_append] using hspelled
  | applied hknown hrule =>
      cases hknown
      exact absurd hsep (by simp [hwrites.grouped.transform.no_separator _ hrule])
  | @grouped _ known => exact absurd hsep (by simp [known.hasSeparator_bareName])

/-- Beside a reference to a field no other column has the field's bare name. -/
theorem eq_of_bareName (hwrites : query.Writes bound plan) {field : Field} {column other : Column}
    (hcolumn : column ∈ plan.columns) (hother : other ∈ plan.columns)
    (hname : column.name = field.qualified bound.datasetId) (hbare : other.name = field.bareName) :
    other = column := by
  obtain ⟨known, hknown, hsource, hsame⟩ := hwrites.exists_group_of_qualified hcolumn hname
  have hnamed := hwrites.columns.named other hother
  refine List.inj_on_of_nodup_map hwrites.columns.distinct_sources hother hcolumn ?_
  rw [hsource]
  generalize other.source = source at hnamed
  generalize other.name = name at hnamed hbare
  cases hnamed with
  | reference hrefers =>
      exact absurd hrefers.hasSeparator_key (by simp [hbare, field.hasSeparator_bareName])
  | applied hfound hrule =>
      cases hfound
      -- rules keep away from the bare names of group fields
      exact absurd (List.mem_map.2 ⟨known, hknown, hsame.trans hbare.symm⟩)
        (hwrites.apart _ hrule)
  | @grouped _ third hfound hthird =>
      cases hfound
      have hkinds := hwrites.grouped.transform.group_kind
      rw [Kind.eq_of_bareName_eq ((hkinds third hthird).trans (hkinds known hknown).symm)
        (hbare.trans hsame.symm)]

theorem bareFor_injective (hwrites : query.Writes bound plan) (field : Field)
    {column other : Column} (hcolumn : column ∈ plan.columns) (hother : other ∈ plan.columns)
    (hsame : bareFor bound.datasetId field column.name =
      bareFor bound.datasetId field other.name) : column.name = other.name := by
  unfold bareFor at hsame
  split at hsame
  next hfirst =>
    split at hsame
    next hsecond => exact hfirst.trans hsecond.symm
    next => rw [hwrites.eq_of_bareName hcolumn hother hfirst hsame.symm]
  next =>
    split at hsame
    next hsecond => rw [hwrites.eq_of_bareName hother hcolumn hsecond hsame]
    next => exact hsame

/-! ## One step -/

/-- The transformation may be exchanged for one with the same group fields and apply rules. -/
theorem withTransform (hwrites : query.Writes bound plan) {keys : List String}
    {items : List Json} (transform : Transform) (hfilled : keys ≠ [])
    (hgroup : List.Forall₂ (fun field key => bound.Refers key field) transform.group keys)
    (happly : List.Forall₂ (ApplyRule.WrittenBy bound) transform.apply items)
    (hfields : ∀ field, field ∈ transform.group ↔ field ∈ plan.transform.group)
    (hrules : transform.apply.Perm plan.transform.apply) :
    ∃ again, { query with group := keys, apply := items : GroupedQuery }.Writes bound again ∧
      again.AnswersAs plan := by
  have hbare : ∀ name, name ∈ transform.group.map Field.bareName ↔
      name ∈ plan.transform.group.map Field.bareName := by
    simp only [List.mem_map, hfields, implies_true]
  have hsources : ∀ source, source ∈ transform.sources ↔ source ∈ plan.transform.sources := by
    intro source
    simp only [Transform.sources, List.mem_append, List.mem_map, hfields, hrules.mem_iff]
  have hnew : { query with group := keys, apply := items : GroupedQuery }.Writes bound
      { plan with transform := transform } :=
    { hwrites with
      group_ne_nil := hfilled
      group := hgroup
      apply := happly
      distinct_rules := (hrules.map _).nodup_iff.2 hwrites.distinct_rules
      apart := fun rule hrule hmem =>
        hwrites.apart rule (hrules.mem_iff.1 hrule) ((hbare _).1 hmem)
      columns := { hwrites.columns with
        named := fun column hcolumn => (hwrites.columns.named column hcolumn).mono
          (fun field => (hfields field).2) fun _ => hrules.mem_iff.2 }
      sources := fun source => (hwrites.sources source).trans (hsources source).symm }
  have hvariant : plan.Variant id { plan with transform := transform } :=
    ⟨rfl, rfl, rfl, hfields, hrules, by simp, by simp⟩
  exact ⟨_, hnew, hwrites.answersAs hnew hvariant⟩

/-- The columns may be renamed and change places, as long as each name still stands for its
source. -/
theorem withColumns (hwrites : query.Writes bound plan) (rename : String → String)
    {columns : List Column} {order : Option Json}
    (hcolumns : columns.Perm
      (plan.columns.map fun column => ⟨rename column.name, column.source⟩))
    (hnamed : ∀ column ∈ columns,
      column.source.NamedBy bound (some plan.transform) column.name)
    (hnames : (columns.map Column.name).Nodup)
    (horder : Option.Rel (OrderSpec.WrittenBy (columns.map Column.name))
      (plan.order.map fun order => ⟨order.keys.map rename, order.direction⟩) order) :
    ∃ again,
      { query with columns := columns.map Column.name, order := order : GroupedQuery }.Writes
        bound again ∧ again.AnswersAs plan := by
  have hsources : (columns.map Column.source).Perm (plan.columns.map Column.source) := by
    simpa [Function.comp_def] using hcolumns.map Column.source
  have hfilled : columns ≠ [] := by
    intro hempty
    rw [hempty] at hsources
    exact hwrites.columns.ne_nil (List.map_eq_nil_iff.1 (List.nil_perm.1 hsources))
  have hnew : { query with
      columns := columns.map Column.name
      order := order : GroupedQuery }.Writes bound { plan with
        columns := columns
        order := plan.order.map fun order => ⟨order.keys.map rename, order.direction⟩ } :=
    { hwrites with
      columns :=
        { spelled := by simp [Function.comp_def]
          ne_nil := hfilled
          named := hnamed
          distinct_names := hnames
          distinct_sources := hsources.nodup_iff.2 hwrites.columns.distinct_sources }
      order := horder
      sources := fun source => hsources.mem_iff.trans (hwrites.sources source) }
  have hvariant : plan.Variant rename { plan with
      columns := columns
      order := plan.order.map fun order => ⟨order.keys.map rename, order.direction⟩ } :=
    ⟨rfl, rfl, rfl, fun _ => Iff.rfl, .refl _, hcolumns, rfl⟩
  exact ⟨_, hnew, hwrites.answersAs hnew hvariant⟩

theorem exists_group (hwrites : query.Writes bound plan) {keys : List String}
    (hkeys : ∀ key, key ∈ keys ↔ key ∈ query.group) :
    ∃ again, { query with group := keys : GroupedQuery }.Writes bound again ∧
      again.AnswersAs plan := by
  have hrefers : ∀ key ∈ keys, ∃ field, bound.Refers key field := by
    intro key hkey
    obtain ⟨field, -, hfield⟩ := exists_of_mem_forall₂ hwrites.group.flip ((hkeys key).1 hkey)
    exact ⟨field, hfield⟩
  obtain ⟨fields, hfields⟩ := exists_forall₂ hrefers
  have hsame : ∀ field, field ∈ fields ↔ field ∈ plan.transform.group := by
    intro field
    rw [mem_iff_of_refers hfields, mem_iff_of_refers hwrites.group]
    simp only [hkeys]
  exact hwrites.withTransform ⟨fields, plan.transform.apply⟩
    ((ne_nil_congr_mem hkeys).2 hwrites.group_ne_nil) hfields hwrites.apply hsame (.refl _)

theorem exists_apply (hwrites : query.Writes bound plan) {items : List Json}
    (hitems : items.Perm query.apply) :
    ∃ again, { query with apply := items : GroupedQuery }.Writes bound again ∧
      again.AnswersAs plan := by
  obtain ⟨rules, hrules, hperm⟩ := List.perm_comp_forall₂ hitems hwrites.apply.flip
  exact hwrites.withTransform ⟨plan.transform.group, rules⟩ hwrites.group_ne_nil hwrites.group
    hrules.flip (fun _ => Iff.rfl) hperm

theorem exists_columns (hwrites : query.Writes bound plan) {names : List String}
    (hnames : names.Perm query.columns) :
    ∃ again, { query with columns := names : GroupedQuery }.Writes bound again ∧
      again.AnswersAs plan := by
  rw [← hwrites.columnNames] at hnames
  have hall : List.Forall₂ (fun name column => name = column.name) plan.columnNames plan.columns :=
    List.forall₂_map_left_iff.2 (List.forall₂_same.2 fun _ _ => rfl)
  obtain ⟨columns, hcolumns, hperm⟩ := List.perm_comp_forall₂ hnames hall
  obtain rfl : names = columns.map Column.name := by
    rw [← List.map_id names]
    exact map_eq_map_of_forall₂ hcolumns
  refine hwrites.withColumns id (by simpa using hperm) ?_ ?_ ?_
  · exact fun column hcolumn => hwrites.columns.named column (hperm.mem_iff.1 hcolumn)
  · exact hnames.nodup_iff.2 hwrites.columns.distinct_names
  · have hknown : ∀ key, key ∈ plan.columnNames → key ∈ columns.map Column.name :=
      fun key => hnames.mem_iff.2
    have horder := hwrites.order
    simp only [List.map_id, Option.map_id']
    generalize plan.order = order at horder
    generalize query.order = written at horder
    cases horder with
    | none => exact .none
    | some hspec => exact .some (hspec.mono hknown)

theorem exists_bare (hwrites : query.Writes bound plan) (field : Field) :
    ∃ again, { query with
        columns := query.columns.map (bareFor bound.datasetId field)
        order := query.order.map (renameOrder (bareFor bound.datasetId field)) :
          GroupedQuery }.Writes bound again ∧ again.AnswersAs plan := by
  have hnames : (plan.columns.map fun column =>
      (⟨bareFor bound.datasetId field column.name, column.source⟩ : Column)).map Column.name =
        plan.columnNames.map (bareFor bound.datasetId field) := by
    rw [Plan.columnNames, List.map_map, List.map_map]
    rfl
  rw [← hwrites.columnNames, ← hnames]
  refine hwrites.withColumns (bareFor bound.datasetId field) (.refl _) ?_ ?_ ?_
  · intro column hcolumn
    obtain ⟨old, hold, rfl⟩ := List.mem_map.1 hcolumn
    dsimp only [bareFor]
    split
    next hname =>
      obtain ⟨known, hknown, hsource, hbare⟩ := hwrites.exists_group_of_qualified hold hname
      rw [hsource, ← hbare]
      exact .grouped rfl hknown
    next => exact hwrites.columns.named old hold
  · rw [hnames]
    refine List.Nodup.map_on ?_ hwrites.columns.distinct_names
    intro first hfirst second hsecond hsame
    obtain ⟨column, hcolumn, rfl⟩ := List.mem_map.1 hfirst
    obtain ⟨other, hother, rfl⟩ := List.mem_map.1 hsecond
    exact hwrites.bareFor_injective field hcolumn hother hsame
  · have horder := hwrites.order
    rw [hnames]
    generalize plan.order = order at horder
    generalize query.order = written at horder
    cases horder with
    | none => exact .none
    | some hspec => exact .some (hspec.rename _)

end GroupedQuery.Writes

/-! ## Any number of steps -/

theorem Rephrases.exists_answersAs {first second : GroupedQuery}
    (hrephrases : Rephrases bound.datasetId first second) {plan : Plan}
    (hwrites : first.Writes bound plan) :
    ∃ again, second.Writes bound again ∧ again.AnswersAs plan := by
  induction hrephrases generalizing plan with
  | group hkeys => exact hwrites.exists_group hkeys
  | apply hitems => exact hwrites.exists_apply hitems
  | columns hnames => exact hwrites.exists_columns hnames
  | bare field => exact hwrites.exists_bare field
  | trans _ _ hfirst hsecond =>
      obtain ⟨middle, hmiddle, hanswers⟩ := hfirst hwrites
      obtain ⟨last, hlast, hagain⟩ := hsecond hmiddle
      exact ⟨last, hlast, hanswers.trans hagain⟩

/-- A document with a transformation is a grouped query. In other words it is accepted again, has
the columns that are then named, and its plan answers as the old one does on every store and under
every cap: with the same error, or with as many rows of the same cells in the same order. -/
theorem rephrased_answers_alike {document : Json} {found : Plan}
    (hplan : plan registry document = .ok found) (htransforms : Transforms document) :
    ∃ query : GroupedQuery, document = query.toJson ∧
      ∀ other, Rephrases found.datasetId query other →
        ∃ again, plan registry other.toJson = .ok again ∧ again.columnNames = other.columns ∧
          again.AnswersAs found := by
  obtain ⟨bound, hregistered, hwritten⟩ := Plan.ofDocument_eq_ok_iff.1 (plan_eq_ok_iff.1 hplan)
  obtain ⟨query, rfl⟩ := hwritten.exists_query htransforms
  have hwrites := writtenBy_toJson_iff.1 hwritten
  refine ⟨query, rfl, fun other hrephrases => ?_⟩
  rw [hwrites.datasetId] at hrephrases
  obtain ⟨again, hagain, hanswers⟩ := hrephrases.exists_answersAs hwrites
  exact ⟨again, plan_eq_ok_iff.2 (Plan.ofDocument_eq_ok_iff.2
    ⟨bound, hregistered, writtenBy_toJson_iff.2 hagain⟩), hagain.columnNames, hanswers⟩

/-- The sections of every average, asked for by its bare name behind what they passed, and grouped
by it twice. -/
def byBareAverage : GroupedQuery where
  filter := .object []
  columns := ["passed", "avg"]
  order := some (.string "avg")
  group := ["courses_avg", "courses_avg"]
  apply := [.object [("passed", .object [("SUM", .string "courses_pass")])]]

theorem bare_average_answers_alike :
    plan (storeOf [.ofNat 90]).registry byAverage = .ok byAveragePlan ∧ Transforms byAverage ∧
      ∃ again, plan (storeOf [.ofNat 90]).registry byBareAverage.toJson = .ok again ∧
        again.columnNames = ["passed", "avg"] ∧ again.AnswersAs byAveragePlan := by
  have hplan := plan_byAverage [.ofNat 90]
  have htransforms : Transforms byAverage := ⟨_, rfl, by simp⟩
  obtain ⟨query, hquery, hall⟩ := rephrased_answers_alike hplan htransforms
  have hknown : query = ⟨.object [], ["courses_avg", "passed"], some (.string "courses_avg"),
      ["courses_avg"], byBareAverage.apply⟩ :=
    GroupedQuery.toJson_injective (hquery.symm.trans rfl)
  have hrephrases : Rephrases "courses" query byBareAverage := by
    have haverage : bareFor "courses" (.section .avg) "courses_avg" = "avg" := by decide
    have hpassed : bareFor "courses" (.section .avg) "passed" = "passed" := by decide
    have hbare := @Rephrases.bare "courses" query (.section .avg)
    rw [hknown] at hbare ⊢
    simp only [List.map_cons, List.map_nil, Option.map_some, renameOrder, haverage,
      hpassed] at hbare
    have hcolumns : ["passed", "avg"].Perm ["avg", "passed"] := .swap _ _ _
    have hkeys : ∀ key, key ∈ ["courses_avg", "courses_avg"] ↔ key ∈ ["courses_avg"] := by simp
    exact (hbare.trans (.columns hcolumns)).trans (.group hkeys)
  exact ⟨hplan, htransforms, hall _ hrephrases⟩

end CampusQuery.Query
