import CampusQuery.Proofs.Query.Running

/-!
# Boolean laws of filters

The laws of Boolean algebra identify filters, wherever these stand inside the
value of `WHERE`. Identified filters are true of the same records, whichever
dataset is bound, so the documents that hold them are one query.
-/

namespace CampusQuery.Query

/-! ## Filters that the laws identify -/

/-- The filter that joins filters. -/
def joined (op : LogicOp) (items : List Json) : Json := .object [(op.key, .array items)]

/-- The filter that is true where another is not. -/
def negated (item : Json) : Json := .object [("NOT", item)]

namespace LogicOp

/-- The other way of joining. -/
def dual : LogicOp → LogicOp
  | .and => .or
  | .or => .and

/-- A property joined over items: all of them have it, or at least one has it. -/
def Joins {α : Type} (op : LogicOp) (property : α → Prop) (items : List α) : Prop :=
  match op with
  | .and => ∀ item ∈ items, property item
  | .or => ∃ item ∈ items, property item

end LogicOp

/-- The laws. The empty object is no filter, so it is not rewritten to one. -/
inductive BooleanLaw : Json → Json → Prop where
  | doubleNegation {filter : Json} : filter ≠ .object [] →
      BooleanLaw filter (negated (negated filter))
  | once {op : LogicOp} {filter : Json} : filter ≠ .object [] →
      BooleanLaw filter (joined op [filter])
  | twice {op : LogicOp} {filter : Json} : filter ≠ .object [] →
      BooleanLaw filter (joined op [filter, filter])
  /-- Filters of one array change places, come again or come once less. -/
  | sameParts {op : LogicOp} {items others : List Json} :
      (∀ filter, filter ∈ items ↔ filter ∈ others) →
      BooleanLaw (joined op items) (joined op others)
  | deMorgan {op : LogicOp} {items : List Json} :
      BooleanLaw (negated (joined op items)) (joined op.dual (items.map negated))

/-- The laws applied in both directions, any number of times, to a value and to the filters at any
depth inside it. What else stands in the objects and arrays on the way is left alone. -/
inductive Respelled : Json → Json → Prop where
  | law {first second : Json} : BooleanLaw first second → Respelled first second
  | refl (json : Json) : Respelled json json
  | symm {first second : Json} : Respelled first second → Respelled second first
  | trans {first second third : Json} :
      Respelled first second → Respelled second third → Respelled first third
  | part {op : LogicOp} {first second : Json} {before after : List Json}
      {front back : List (String × Json)} : Respelled first second →
      Respelled (.object (front ++ (op.key, .array (before ++ first :: after)) :: back))
        (.object (front ++ (op.key, .array (before ++ second :: after)) :: back))
  | inner {first second : Json} {front back : List (String × Json)} : Respelled first second →
      Respelled (.object (front ++ ("NOT", first) :: back))
        (.object (front ++ ("NOT", second) :: back))

/-- Nothing is respelled to the empty object but itself. -/
theorem Respelled.eq_empty_iff {first second : Json} (hrespelled : Respelled first second) :
    first = .object [] ↔ second = .object [] := by
  induction hrespelled with
  | law hlaw =>
      cases hlaw with
      | doubleNegation hfilled => simp [hfilled, negated]
      | once hfilled => simp [hfilled, joined]
      | twice hfilled => simp [hfilled, joined]
      | sameParts => simp [joined]
      | deMorgan => simp [joined, negated]
  | refl => exact Iff.rfl
  | symm _ ih => exact ih.symm
  | trans _ _ hfirst hsecond => exact hfirst.trans hsecond
  | part => simp
  | inner => simp

/-! ## What filters are true of -/

variable {bound : Bound} {filter : Json} {record : Record}

/-- A value is a filter while a dataset is bound. -/
def IsFilter (bound : Bound) (filter : Json) : Prop :=
  ∃ condition : Condition, condition.WrittenBy bound filter

/-- A value is a filter that is true of a record. -/
def TrueOf (bound : Bound) (record : Record) (filter : Json) : Prop :=
  ∃ condition : Condition, condition.WrittenBy bound filter ∧ condition.holds record = true

theorem TrueOf.isFilter (htrue : TrueOf bound record filter) : IsFilter bound filter := by
  obtain ⟨condition, hwritten, -⟩ := htrue
  exact ⟨condition, hwritten⟩

/-- All conditions that a value writes have one meaning, so any of them tells what it is true
of. -/
theorem trueOf_iff_holds {condition : Condition} (hwritten : condition.WrittenBy bound filter) :
    TrueOf bound record filter ↔ condition.holds record = true := by
  constructor
  · intro htrue
    obtain ⟨other, hother, hholds⟩ := htrue
    have hsame := (WhereMeans.condition hother).unique (.condition hwritten)
    rw [← hholds]
    exact (congrFun hsame record).symm
  · intro hholds
    exact ⟨condition, hwritten, hholds⟩

theorem LogicOp.key_injective {op other : LogicOp} (hkey : op.key = other.key) : op = other :=
  Option.some.inj ((ofKey?_eq_some_iff.2 rfl).symm.trans (ofKey?_eq_some_iff.2 hkey.symm))

theorem LogicOp.key_ne_not (op : LogicOp) : op.key ≠ "NOT" := by
  cases op <;> decide

/-- What writes a joined filter is a condition joined in the same way. -/
theorem writtenBy_joined_iff {condition : Condition} {op : LogicOp} {items : List Json} :
    condition.WrittenBy bound (joined op items) ↔
      ∃ parts, condition = .logic op parts ∧ items ≠ [] ∧
        List.Forall₂ (Condition.WrittenBy bound) parts items := by
  constructor
  · intro hwritten
    generalize hjson : joined op items = json at hwritten
    cases hwritten with
    | @logic other parts _ hfilled hparts =>
        obtain ⟨hkey, rfl⟩ : op.key = other.key ∧ items = _ := by simpa [joined] using hjson
        exact ⟨parts, by rw [LogicOp.key_injective hkey], hfilled, hparts⟩
    | not => simp [joined, op.key_ne_not] at hjson
    | compare => simp [joined] at hjson
    | matching => simp [joined] at hjson
  · intro hlogic
    obtain ⟨parts, rfl, hfilled, hparts⟩ := hlogic
    exact .logic hfilled hparts

theorem writtenBy_negated_iff {condition : Condition} :
    condition.WrittenBy bound (negated filter) ↔
      ∃ part, condition = .not part ∧ part.WrittenBy bound filter := by
  constructor
  · intro hwritten
    generalize hjson : negated filter = json at hwritten
    cases hwritten with
    | @logic op => simp [negated, op.key_ne_not.symm] at hjson
    | @not part _ hpart =>
        obtain rfl : filter = _ := by simpa [negated] using hjson
        exact ⟨part, rfl, hpart⟩
    | @compare op =>
        have hkey : "NOT" ≠ op.key := by cases op <;> decide
        simp [negated, hkey] at hjson
    | matching => simp [negated] at hjson
  · intro hnot
    obtain ⟨part, rfl, hpart⟩ := hnot
    exact .not hpart

theorem isFilter_joined_iff {op : LogicOp} {items : List Json} :
    IsFilter bound (joined op items) ↔ items ≠ [] ∧ ∀ item ∈ items, IsFilter bound item := by
  simp only [IsFilter, writtenBy_joined_iff]
  constructor
  · intro hfilter
    obtain ⟨_, parts, rfl, hfilled, hparts⟩ := hfilter
    refine ⟨hfilled, fun item hitem => ?_⟩
    obtain ⟨part, -, hpart⟩ := exists_of_mem_forall₂ hparts.flip hitem
    exact ⟨part, hpart⟩
  · intro hitems
    obtain ⟨hfilled, hfilters⟩ := hitems
    obtain ⟨parts, hparts⟩ := exists_forall₂ hfilters
    exact ⟨_, parts, rfl, hfilled, hparts⟩

theorem isFilter_negated_iff : IsFilter bound (negated filter) ↔ IsFilter bound filter := by
  simp only [IsFilter, writtenBy_negated_iff]
  constructor
  · intro hfilter
    obtain ⟨_, part, rfl, hpart⟩ := hfilter
    exact ⟨part, hpart⟩
  · intro hfilter
    obtain ⟨part, hpart⟩ := hfilter
    exact ⟨_, part, rfl, hpart⟩

theorem holds_logic_iff {op : LogicOp} {parts : List Condition} :
    (Condition.logic op parts).holds record = true ↔
      op.Joins (fun part => part.holds record = true) parts := by
  cases op with
  | and => rw [Condition.holds_and, List.all_eq_true, LogicOp.Joins]
  | or => rw [Condition.holds_or, List.any_eq_true, LogicOp.Joins]

theorem LogicOp.joins_iff_of_forall₂ {α β : Type} {relation : α → β → Prop} {left : List α}
    {right : List β} (op : LogicOp) (hall : List.Forall₂ relation left right) {first : α → Prop}
    {second : β → Prop} (hiff : ∀ a b, relation a b → (first a ↔ second b)) :
    op.Joins first left ↔ op.Joins second right := by
  cases op with
  | and => exact (forall_mem_iff_of_forall₂ hall fun a _ b hab => (hiff a b hab).symm).symm
  | or =>
      constructor
      · intro hsome
        obtain ⟨a, ha, hfirst⟩ := hsome
        obtain ⟨b, hb, hab⟩ := exists_of_mem_forall₂ hall ha
        exact ⟨b, hb, (hiff a b hab).1 hfirst⟩
      · intro hsome
        obtain ⟨b, hb, hsecond⟩ := hsome
        obtain ⟨a, ha, hab⟩ := exists_of_mem_forall₂ hall.flip hb
        exact ⟨a, ha, (hiff a b hab).2 hsecond⟩

/-- A joined filter is true of a record if it is a filter and so many of its filters are. -/
theorem trueOf_joined_iff {op : LogicOp} {items : List Json} :
    TrueOf bound record (joined op items) ↔
      IsFilter bound (joined op items) ∧ op.Joins (TrueOf bound record) items := by
  rw [← and_iff_right_of_imp (@TrueOf.isFilter bound (joined op items) record)]
  refine and_congr_right fun hfilter => ?_
  obtain ⟨condition, hwritten⟩ := hfilter
  obtain ⟨parts, rfl, -, hparts⟩ := writtenBy_joined_iff.1 hwritten
  rw [trueOf_iff_holds hwritten, holds_logic_iff]
  exact op.joins_iff_of_forall₂ hparts fun part item hpart => (trueOf_iff_holds hpart).symm

theorem trueOf_negated_iff :
    TrueOf bound record (negated filter) ↔
      IsFilter bound filter ∧ ¬ TrueOf bound record filter := by
  rw [← and_iff_right_of_imp (@TrueOf.isFilter bound (negated filter) record), isFilter_negated_iff]
  refine and_congr_right fun hfilter => ?_
  obtain ⟨condition, hwritten⟩ := hfilter
  rw [trueOf_iff_holds hwritten, trueOf_iff_holds (writtenBy_negated_iff.2 ⟨_, rfl, hwritten⟩),
    Condition.holds_not, Bool.not_eq_true', Bool.not_eq_true]

/-! ## The laws keep what filters are true of -/

/-- Values that are filters together and true of the same records. -/
structure SameTruth (bound : Bound) (first second : Json) : Prop where
  isFilter_iff : IsFilter bound first ↔ IsFilter bound second
  trueOf_iff : ∀ record, TrueOf bound record first ↔ TrueOf bound record second

namespace SameTruth

variable {first second third : Json}

theorem refl (json : Json) : SameTruth bound json json := ⟨Iff.rfl, fun _ => Iff.rfl⟩

theorem symm (hsame : SameTruth bound first second) : SameTruth bound second first :=
  ⟨hsame.isFilter_iff.symm, fun record => (hsame.trueOf_iff record).symm⟩

theorem trans (hfirst : SameTruth bound first second) (hsecond : SameTruth bound second third) :
    SameTruth bound first third :=
  ⟨hfirst.isFilter_iff.trans hsecond.isFilter_iff, fun record =>
    (hfirst.trueOf_iff record).trans (hsecond.trueOf_iff record)⟩

end SameTruth

theorem LogicOp.not_joins_iff {α : Type} (op : LogicOp) {property : α → Prop} {items : List α} :
    ¬ op.Joins property items ↔ op.dual.Joins (fun item => ¬ property item) items := by
  cases op with
  | and => simp [LogicOp.Joins, LogicOp.dual]
  | or => simp [LogicOp.Joins, LogicOp.dual]

theorem LogicOp.joins_map {α β : Type} (op : LogicOp) {property : β → Prop} {f : α → β}
    {items : List α} :
    op.Joins property (items.map f) ↔ op.Joins (fun item => property (f item)) items := by
  cases op with
  | and => simp [LogicOp.Joins]
  | or => simp [LogicOp.Joins]

theorem LogicOp.joins_congr_mem {α : Type} (op : LogicOp) {property : α → Prop}
    {items others : List α} (hsame : ∀ item, item ∈ items ↔ item ∈ others) :
    op.Joins property items ↔ op.Joins property others := by
  cases op with
  | and => simp only [LogicOp.Joins, hsame]
  | or => simp only [LogicOp.Joins, hsame]

theorem sameTruth_joined_of_mem_iff (op : LogicOp) {items others : List Json}
    (hsame : ∀ filter, filter ∈ items ↔ filter ∈ others) :
    SameTruth bound (joined op items) (joined op others) := by
  have hfilter : IsFilter bound (joined op items) ↔ IsFilter bound (joined op others) := by
    rw [isFilter_joined_iff, isFilter_joined_iff, ne_nil_congr_mem hsame]
    simp only [hsame]
  refine ⟨hfilter, fun record => ?_⟩
  rw [trueOf_joined_iff, trueOf_joined_iff, hfilter, op.joins_congr_mem hsame]

theorem sameTruth_joined_singleton (op : LogicOp) (filter : Json) :
    SameTruth bound filter (joined op [filter]) := by
  have hfilter : IsFilter bound filter ↔ IsFilter bound (joined op [filter]) := by
    simp [isFilter_joined_iff]
  refine ⟨hfilter, fun record => ?_⟩
  rw [trueOf_joined_iff, ← hfilter]
  constructor
  · intro htrue
    refine ⟨htrue.isFilter, ?_⟩
    cases op <;> simpa [LogicOp.Joins] using htrue
  · intro htrue
    cases op <;> simpa [LogicOp.Joins] using htrue.2

theorem sameTruth_deMorgan (op : LogicOp) (items : List Json) :
    SameTruth bound (negated (joined op items)) (joined op.dual (items.map negated)) := by
  have hfilter : IsFilter bound (negated (joined op items)) ↔
      IsFilter bound (joined op.dual (items.map negated)) := by
    simp [isFilter_negated_iff, isFilter_joined_iff]
  refine ⟨hfilter, fun record => ?_⟩
  rw [trueOf_negated_iff, trueOf_joined_iff, trueOf_joined_iff, ← hfilter, isFilter_negated_iff,
    op.dual.joins_map]
  refine and_congr_right fun hjoined => ?_
  rw [not_and, op.not_joins_iff, forall_prop_of_true hjoined]
  -- every item is a filter, so it is false exactly where its negation is true
  have hitems := (isFilter_joined_iff.1 hjoined).2
  have hsame : List.Forall₂ (fun item other => item = other ∧ item ∈ items) items items :=
    List.forall₂_same.2 fun item hitem => ⟨rfl, hitem⟩
  refine op.dual.joins_iff_of_forall₂ hsame ?_
  rintro item _ ⟨rfl, hitem⟩
  rw [trueOf_negated_iff, and_iff_right (hitems item hitem)]

theorem BooleanLaw.sameTruth {first second : Json} (hlaw : BooleanLaw first second) :
    SameTruth bound first second := by
  cases hlaw with
  | doubleNegation =>
      refine ⟨by rw [isFilter_negated_iff, isFilter_negated_iff], fun record => ?_⟩
      rw [trueOf_negated_iff, trueOf_negated_iff, isFilter_negated_iff]
      constructor
      · intro htrue
        exact ⟨htrue.isFilter, fun hnot => hnot.2 htrue⟩
      · intro hnot
        by_contra hfalse
        exact hnot.2 ⟨hnot.1, hfalse⟩
  | @once op => exact sameTruth_joined_singleton op first
  | @twice op =>
      exact (sameTruth_joined_singleton op first).trans
        (sameTruth_joined_of_mem_iff op (by simp))
  | @sameParts op items others hsame => exact sameTruth_joined_of_mem_iff op hsame
  | @deMorgan op items => exact sameTruth_deMorgan op items

/-! ## They keep it at any depth -/

theorem sameTruth_joined_of_forall₂ (op : LogicOp) {items others : List Json}
    (hall : List.Forall₂ (SameTruth bound) items others) :
    SameTruth bound (joined op items) (joined op others) := by
  have hfilter : IsFilter bound (joined op items) ↔ IsFilter bound (joined op others) := by
    rw [isFilter_joined_iff, isFilter_joined_iff]
    refine and_congr ?_ ?_
    · rw [← List.length_pos_iff, ← List.length_pos_iff, hall.length_eq]
    · exact (forall_mem_iff_of_forall₂ hall fun _ _ _ hsame => hsame.isFilter_iff.symm).symm
  refine ⟨hfilter, fun record => ?_⟩
  rw [trueOf_joined_iff, trueOf_joined_iff, hfilter,
    op.joins_iff_of_forall₂ hall fun _ _ hsame => hsame.trueOf_iff record]

theorem sameTruth_negated {first second : Json} (hsame : SameTruth bound first second) :
    SameTruth bound (negated first) (negated second) := by
  refine ⟨?_, fun record => ?_⟩
  · rw [isFilter_negated_iff, isFilter_negated_iff, hsame.isFilter_iff]
  · rw [trueOf_negated_iff, trueOf_negated_iff, hsame.isFilter_iff, hsame.trueOf_iff]

/-- An object with a second entry is no filter, whatever its entries are. -/
theorem sameTruth_object {entry other : String × Json} (front back : List (String × Json))
    (hsame : SameTruth bound (.object [entry]) (.object [other])) :
    SameTruth bound (.object (front ++ entry :: back)) (.object (front ++ other :: back)) := by
  by_cases halone : front = [] ∧ back = []
  · obtain ⟨rfl, rfl⟩ := halone
    exact hsame
  · have hnone : ∀ entry, ¬ IsFilter bound (.object (front ++ entry :: back)) := by
      intro entry hfilter
      obtain ⟨condition, hwritten⟩ := hfilter
      obtain ⟨only, honly⟩ := hwritten.eq_object
      rw [Json.object.injEq, List.append_eq_singleton_iff] at honly
      rcases honly with ⟨hfront, hrest⟩ | ⟨-, hrest⟩
      · exact halone ⟨hfront, (List.cons.inj hrest).2⟩
      · exact nomatch hrest
    exact ⟨iff_of_false (hnone entry) (hnone other), fun record => iff_of_false
      (fun htrue => hnone entry htrue.isFilter) fun htrue => hnone other htrue.isFilter⟩

theorem Respelled.sameTruth {first second : Json} (hrespelled : Respelled first second) :
    SameTruth bound first second := by
  induction hrespelled with
  | law hlaw => exact hlaw.sameTruth
  | refl json => exact .refl json
  | symm _ ih => exact ih.symm
  | trans _ _ hfirst hsecond => exact hfirst.trans hsecond
  | @part op first second before after front back _ ih =>
      refine sameTruth_object front back (sameTruth_joined_of_forall₂ op ?_)
      exact List.rel_append (List.forall₂_same.2 fun json _ => .refl json)
        (.cons ih (List.forall₂_same.2 fun json _ => .refl json))
  | inner _ ih => exact sameTruth_object _ _ (sameTruth_negated ih)

/-! ## Documents -/

/-- Two documents are one query. They are accepted together, their plans differ only in the filter
and end alike on every store and under every cap. So do checking and running them on one store. -/
structure SameQuery (first second : Json) : Prop where
  accepted_iff : ∀ registry, (∃ found, plan registry first = .ok found) ↔
    ∃ other, plan registry second = .ok other
  plans_agree : ∀ registry found other, plan registry first = .ok found →
    plan registry second = .ok other → other = { found with filter := other.filter } ∧
      ∀ maxRows store, other.run maxRows store = found.run maxRows store
  run_eq : ∀ maxRows store, (∃ found, plan store.registry first = .ok found) →
    run maxRows store second = run maxRows store first

/-- A filter that is true of the same records lets them through in the same way. -/
theorem FilterWrittenBy.exists_other {first second : Json} {filter : Option FilterTree}
    (hwritten : FilterWrittenBy bound filter first) (hsame : SameTruth bound first second)
    (hempty : first = .object [] ↔ second = .object []) :
    ∃ other, FilterWrittenBy bound other second ∧ ∀ plan : Plan, plan.filter = filter →
      ∀ records,
        ({ plan with filter := other } : Plan).matching records = plan.matching records := by
  cases hwritten with
  | everything =>
      rw [hempty.1 rfl]
      refine ⟨none, .everything, fun plan hfilter records => ?_⟩
      rw [Plan.matching, Plan.matching, hfilter]
  | @condition condition _ hcondition =>
      obtain ⟨other, hother⟩ := hsame.isFilter_iff.1 ⟨condition, hcondition⟩
      refine ⟨_, .condition hother, fun plan hfilter records => ?_⟩
      rw [Plan.matching, Plan.matching, hfilter]
      refine List.filter_congr fun record _ => ?_
      rw [Condition.holds_tree, Condition.holds_tree, Bool.eq_iff_iff, ← trueOf_iff_holds hother,
        ← trueOf_iff_holds hcondition, hsame.trueOf_iff]

/-- The first entry of a document is the only one that is a `WHERE`. -/
theorem where_first {front back rest : List (String × Json)} {json written : Json}
    (hentries : front ++ ("WHERE", json) :: back = ("WHERE", written) :: rest)
    (hrest : "WHERE" ∉ rest.map Prod.fst) : front = [] ∧ json = written ∧ back = rest := by
  cases front with
  | nil =>
      cases hentries
      exact ⟨rfl, rfl, rfl⟩
  | cons entry front =>
      have hmem : ("WHERE", json) ∈ rest := by
        rw [← (List.cons.inj hentries).2]
        exact List.mem_append_right _ List.mem_cons_self
      exact absurd (List.mem_map_of_mem hmem) hrest

theorem Plan.WrittenBy.exists_other {found : Plan} {first second : Json}
    {front back : List (String × Json)}
    (hwritten : found.WrittenBy bound (.object (front ++ ("WHERE", first) :: back)))
    (hsame : SameTruth bound first second) (hempty : first = .object [] ↔ second = .object []) :
    ∃ other : Plan, other.WrittenBy bound (.object (front ++ ("WHERE", second) :: back)) ∧
      other = { found with filter := other.filter } ∧
      ∀ records, other.matching records = found.matching records := by
  generalize hdocument : Json.object (front ++ ("WHERE", first) :: back) = document at hwritten
  cases hwritten with
  | plain hfilter hoptions =>
      obtain ⟨rfl, rfl, rfl⟩ := where_first (Json.object.inj hdocument) (by simp)
      obtain ⟨other, hother, hmatching⟩ := hfilter.exists_other hsame hempty
      exact ⟨_, .plain hother hoptions, rfl, hmatching _ rfl⟩
  | transformed hfilter htransform hoptions hcolumns =>
      obtain ⟨rfl, rfl, rfl⟩ := where_first (Json.object.inj hdocument) (by simp)
      obtain ⟨other, hother, hmatching⟩ := hfilter.exists_other hsame hempty
      exact ⟨_, .transformed hother htransform hoptions hcolumns, rfl, hmatching _ rfl⟩

/-- Plans that differ in a filter that lets the same records through end alike. -/
theorem Plan.run_eq_of_matching {found other : Plan}
    (hother : other = { found with filter := other.filter })
    (hmatching : ∀ records, other.matching records = found.matching records) (maxRows : Nat)
    (store : Store) : other.run maxRows store = found.run maxRows store := by
  have hrunOn : ∀ records, other.runOn maxRows records = found.runOn maxRows records := by
    intro records
    unfold Plan.runOn
    rw [hmatching]
    rw [hother]
    rfl
  unfold Plan.run
  simp only [hrunOn]
  rw [hother]

theorem Respelled.exists_plan {first second : Json} (hrespelled : Respelled first second)
    {front back : List (String × Json)} {registry : Registry} {found : Plan}
    (hplan : plan registry (.object (front ++ ("WHERE", first) :: back)) = .ok found) :
    ∃ other, plan registry (.object (front ++ ("WHERE", second) :: back)) = .ok other ∧
      other = { found with filter := other.filter } ∧
      ∀ records, other.matching records = found.matching records := by
  obtain ⟨bound, hregistered, hwritten⟩ := Plan.ofDocument_eq_ok_iff.1 (plan_eq_ok_iff.1 hplan)
  obtain ⟨other, hother, hsame, hmatching⟩ :=
    hwritten.exists_other hrespelled.sameTruth hrespelled.eq_empty_iff
  exact ⟨other, plan_eq_ok_iff.2 (Plan.ofDocument_eq_ok_iff.2 ⟨bound, hregistered, hother⟩), hsame,
    hmatching⟩

/-- Documents whose `WHERE` differs by the laws of Boolean algebra, at any depth, are one query:
accepted together, bound to one dataset, and answered with the same rows and counts or with the
same error. -/
theorem respelled_where_same_query {first second : Json} (hrespelled : Respelled first second)
    (front back : List (String × Json)) :
    SameQuery (.object (front ++ ("WHERE", first) :: back))
      (.object (front ++ ("WHERE", second) :: back)) where
  accepted_iff registry := by
    constructor
    · intro hfirst
      obtain ⟨found, hplan⟩ := hfirst
      obtain ⟨other, hother, -⟩ := hrespelled.exists_plan hplan
      exact ⟨other, hother⟩
    · intro hsecond
      obtain ⟨found, hplan⟩ := hsecond
      obtain ⟨other, hother, -⟩ := hrespelled.symm.exists_plan hplan
      exact ⟨other, hother⟩
  plans_agree registry found other hplan hother := by
    obtain ⟨same, hsame, hdiffer, hmatching⟩ := hrespelled.exists_plan hplan
    cases hsame.symm.trans hother
    exact ⟨hdiffer, Plan.run_eq_of_matching hdiffer hmatching⟩
  run_eq maxRows store haccepted := by
    obtain ⟨found, hplan⟩ := haccepted
    obtain ⟨other, hother, hdiffer, hmatching⟩ := hrespelled.exists_plan hplan
    unfold run
    rw [hplan, hother]
    exact Plan.run_eq_of_matching hdiffer hmatching maxRows store

/-- The sections above a bound. -/
def aboveNinety : Json := .object [("GT", .object [("courses_avg", .number (.integer 90))])]

/-- The sections of a department. -/
def inCpsc : Json := .object [("IS", .object [("courses_dept", .string "cpsc")])]

/-- Below an `OR`, the sections that are not both above ninety and of the department are those that
are not the one or not the other, the second of which may be asked for first. -/
theorem deMorgan_below_or :
    ∃ found, plan (storeOf [.ofNat 90]).registry (.object [
        ("WHERE", joined .or [inCpsc, negated (joined .and [aboveNinety, inCpsc])]),
        ("OPTIONS", .object [("COLUMNS", .array [.string "courses_dept"])])]) = .ok found ∧
      SameQuery
        (.object [
          ("WHERE", joined .or [inCpsc, negated (joined .and [aboveNinety, inCpsc])]),
          ("OPTIONS", .object [("COLUMNS", .array [.string "courses_dept"])])])
        (.object [
          ("WHERE", joined .or [inCpsc, joined .or [negated inCpsc, negated aboveNinety]]),
          ("OPTIONS", .object [("COLUMNS", .array [.string "courses_dept"])])]) := by
  have havg : Bound.Refers ⟨"courses", .sections⟩ "courses_avg" (.section .avg) :=
    ⟨rfl, by decide, by decide, by decide⟩
  have hdept : Bound.Refers ⟨"courses", .sections⟩ "courses_dept" (.section .dept) :=
    ⟨rfl, by decide, by decide, by decide⟩
  have habove : Condition.WrittenBy ⟨"courses", .sections⟩ _ aboveNinety :=
    @Condition.WrittenBy.compare _ .greater _ _ _ havg rfl
  have hcpsc : Condition.WrittenBy ⟨"courses", .sections⟩ _ inCpsc :=
    .matching hdept rfl (Pattern.parse?_eq_some_iff.1 (by rfl))
  have hboth : Condition.WrittenBy ⟨"courses", .sections⟩ _
      (joined .and [aboveNinety, inCpsc]) :=
    .logic (List.cons_ne_nil _ _) (.cons habove (.cons hcpsc .nil))
  have hwhere : Condition.WrittenBy ⟨"courses", .sections⟩ _
      (joined .or [inCpsc, negated (joined .and [aboveNinety, inCpsc])]) :=
    .logic (List.cons_ne_nil _ _) (.cons hcpsc (.cons (.not hboth) .nil))
  have hplan := plan_eq_ok_iff.2 (Plan.ofDocument_eq_ok_iff.2
    ⟨⟨"courses", .sections⟩, (rfl : (storeOf [.ofNat 90]).registry "courses" = some .sections),
      .plain (.condition hwhere) (.unordered columnsWrittenBy_department)⟩)
  have hlaw : Respelled (negated (joined .and [aboveNinety, inCpsc]))
      (joined .or [negated inCpsc, negated aboveNinety]) := by
    have hswap : BooleanLaw (joined .or [negated aboveNinety, negated inCpsc])
        (joined .or [negated inCpsc, negated aboveNinety]) :=
      .sameParts fun filter => by simp [or_comm]
    exact .trans (.law .deMorgan) (.law hswap)
  have hinside : Respelled (joined .or [inCpsc, negated (joined .and [aboveNinety, inCpsc])])
      (joined .or [inCpsc, joined .or [negated inCpsc, negated aboveNinety]]) :=
    @Respelled.part .or _ _ [inCpsc] [] [] [] hlaw
  exact ⟨_, hplan, respelled_where_same_query hinside [] _⟩

end CampusQuery.Query
