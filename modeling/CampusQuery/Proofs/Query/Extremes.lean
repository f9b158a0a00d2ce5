import CampusQuery.Proofs.Query.CellTypes
import CampusQuery.Proofs.Query.Distinct

/-!
# Extremes and counts of groups

MAX and MIN show a value of some member that no other exceeds, and COUNT shows
how many distinct values the members have. All three are settled by which values
there are, so they stay the same when the records of a dataset change places.
-/

namespace CampusQuery.Query

open Numeric Binary64

/-! ## Picking numbers -/

/-- An operation picks the one of two finite numbers that is furthest in an order of values. -/
structure Picks (le : Int → Int → Prop) (pick : Binary64 → Binary64 → Binary64) : Prop where
  either : ∀ x y, pick x y = x ∨ pick x y = y
  left : ∀ {x y}, x.isFinite = true → y.isFinite = true → le x.valueUnits (pick x y).valueUnits
  right : ∀ {x y}, x.isFinite = true → y.isFinite = true → le y.valueUnits (pick x y).valueUnits

theorem picks_max : Picks (· ≤ ·) Binary64.max where
  either := max_eq_or
  left hx hy := (le_max_left _ _).trans_eq (valueUnits_max hx hy).symm
  right hx hy := (le_max_right _ _).trans_eq (valueUnits_max hx hy).symm

theorem picks_min : Picks (· ≥ ·) Binary64.min where
  either := min_eq_or
  left hx hy := (valueUnits_min hx hy).trans_le (min_le_left _ _)
  right hx hy := (valueUnits_min hx hy).trans_le (min_le_right _ _)

section Picks

variable {le : Int → Int → Prop} [Std.Refl le] [IsTrans Int le]
  {pick : Binary64 → Binary64 → Binary64}

/-- Picking from numbers one after the other ends with the furthest of them. -/
theorem Picks.foldl (hpick : Picks le pick) {first : Binary64} {rest : List Binary64}
    (hfinite : ∀ n ∈ first :: rest, n.isFinite = true) :
    rest.foldl pick first ∈ first :: rest ∧
      ∀ n ∈ first :: rest, le n.valueUnits (rest.foldl pick first).valueUnits := by
  induction rest generalizing first with
  | nil =>
      refine ⟨List.mem_cons_self, fun n hn => ?_⟩
      rw [List.mem_singleton.1 hn]
      exact refl_of le _
  | cons second rest ih =>
      have hfirst := hfinite first List.mem_cons_self
      have hsecond := hfinite second (List.mem_cons_of_mem _ List.mem_cons_self)
      have hpicked : pick first second = first ∨ pick first second = second :=
        hpick.either first second
      have hnext : ∀ n ∈ pick first second :: rest, n.isFinite = true := by
        intro n hn
        rcases List.mem_cons.1 hn with rfl | hn
        · rcases hpicked with hsame | hsame <;> rwa [hsame]
        · exact hfinite n (by simp [hn])
      obtain ⟨hmem, hbound⟩ := ih hnext
      rw [List.foldl_cons]
      constructor
      · rcases List.mem_cons.1 hmem with hhead | hrest
        · rw [hhead]
          rcases hpicked with hsame | hsame <;> simp [hsame]
        · simp [hrest]
      · have hhead := hbound _ List.mem_cons_self
        intro n hn
        rcases List.mem_cons.1 hn with rfl | hn
        · exact trans_of le (hpick.left hfirst hsecond) hhead
        · rcases List.mem_cons.1 hn with rfl | hn
          · exact trans_of le (hpick.right hfirst hsecond) hhead
          · exact hbound n (List.mem_cons_of_mem _ hn)

end Picks

/-! ## What numbers say of a group -/

/-- A number of some member that is furthest among the numbers of all members. -/
structure Extreme (le : Int → Int → Prop) (field : Field) (members : List Record) (n : Binary64) :
    Prop where
  attained : ∃ member ∈ members, member.get? field = some (.number n)
  furthest : ∀ member ∈ members, ∀ x, member.get? field = some (.number x) →
    le x.valueUnits n.valueUnits

/-- The values that a field holds in some records. -/
def ValuesOf (field : Field) (members : List Record) (values : List Value) : Prop :=
  List.Forall₂ (fun member value => member.get? field = some value) members values

/-- A number is the greatest value of a rule's field, the least, or how many distinct ones there
are, as the rule's token says. -/
structure ApplyRule.Summarises (rule : ApplyRule) (members : List Record) (n : Binary64) :
    Prop where
  greatest : rule.token = .max → Extreme (· ≤ ·) rule.field members n
  least : rule.token = .min → Extreme (· ≥ ·) rule.field members n
  count : rule.token = .count → ∃ values count, ValuesOf rule.field members values ∧
    CountsDistinct values count ∧ n = .ofNat count ∧
      (count < 2 ^ 53 → n.valueUnits = count * unitsPerOne)

section Groups

variable {rule : ApplyRule} {members : List Record} {n : Binary64}

theorem extreme_of_foldl {le : Int → Int → Prop} [Std.Refl le] [IsTrans Int le]
    {pick : Binary64 → Binary64 → Binary64} (hpick : Picks le pick) {field : Field}
    {first : Binary64} {rest : List Binary64}
    (hnumbers : NumbersOf field members (first :: rest))
    (hfinite : ∀ n ∈ first :: rest, n.isFinite = true) :
    Extreme le field members (rest.foldl pick first) := by
  obtain ⟨hmem, hbound⟩ := hpick.foldl hfinite
  constructor
  · obtain ⟨member, hmember, hget⟩ := exists_of_mem_forall₂ (List.Forall₂.flip hnumbers) hmem
    exact ⟨member, hmember, hget⟩
  · intro member hmember x hx
    obtain ⟨y, hy, hget⟩ := exists_of_mem_forall₂ hnumbers hmember
    cases hx.symm.trans hget
    exact hbound x hy

theorem ValuesOf.finite {field : Field} {values : List Value}
    (hvalues : ValuesOf field members values)
    (hfinite : ∀ member ∈ members, member.hasFiniteNumbers = true) :
    ∀ value ∈ values, value.Finite := by
  intro value hvalue
  obtain ⟨member, hmember, hget⟩ := exists_of_mem_forall₂ (List.Forall₂.flip hvalues) hvalue
  exact Record.finite_of_get? (hfinite member hmember) hget

theorem Applies.exists_values (happlies : Applies rule members n) :
    ∃ values, ValuesOf rule.field members values ∧ aggregate rule.token values = .ok n := by
  obtain ⟨values, hvalues, hanswer⟩ := happlies
  exact ⟨values, (Answer.mapM_eq_ok_iff.1 hvalues).imp fun _ _ => readField_eq_ok_iff.1, hanswer⟩

/-- What a rule makes of a group is what its token says. -/
theorem Applies.summarises (happlies : Applies rule members n)
    (haccepts : rule.token.accepts rule.field = true) (hfilled : members ≠ [])
    (hkind : ∀ member ∈ members, rule.field.kind = member.kind)
    (hfinite : ∀ member ∈ members, member.hasFiniteNumbers = true) :
    rule.Summarises members n := by
  have hnumbers : rule.token ≠ .count → ∃ first rest,
      NumbersOf rule.field members (first :: rest) ∧
        (∀ x ∈ first :: rest, x.isFinite = true) ∧
          aggregate rule.token ((first :: rest).map Value.number) = .ok n := by
    intro hcount
    obtain ⟨numbers, hnumbers, hsome, hanswer⟩ :=
      happlies.exists_numbers haccepts hcount hfilled hkind
    obtain ⟨first, rest, rfl⟩ := List.exists_cons_of_ne_nil hsome
    exact ⟨first, rest, hnumbers, hnumbers.finite hfinite, hanswer⟩
  refine ⟨fun htoken => ?_, fun htoken => ?_, fun htoken => ?_⟩
  · obtain ⟨first, rest, hall, hbounded, hanswer⟩ := hnumbers (by rw [htoken]; decide)
    rw [htoken, aggregate_max] at hanswer
    cases hanswer
    exact extreme_of_foldl picks_max hall hbounded
  · obtain ⟨first, rest, hall, hbounded, hanswer⟩ := hnumbers (by rw [htoken]; decide)
    rw [htoken, aggregate_min] at hanswer
    cases hanswer
    exact extreme_of_foldl picks_min hall hbounded
  · obtain ⟨values, hvalues, hanswer⟩ := happlies.exists_values
    have hsome : values ≠ [] := by
      rintro rfl
      exact hfilled (List.forall₂_nil_right_iff.1 hvalues)
    obtain ⟨count, hcount, hcounted⟩ := exists_countsDistinct (hvalues.finite hfinite) hsome
    rw [htoken, hcounted] at hanswer
    cases hanswer
    exact ⟨values, count, hvalues, hcount, rfl, valueUnits_ofNat⟩

/-! ## Members in another order -/

theorem Extreme.unique {le : Int → Int → Prop} [Std.Antisymm le] {field : Field}
    {moved : List Record} {m : Binary64} (hextreme : Extreme le field members n)
    (hmoved : Extreme le field moved m) (hperm : moved.Perm members) :
    n.valueUnits = m.valueUnits := by
  obtain ⟨member, hmember, hget⟩ := hextreme.attained
  obtain ⟨other, hother, hfound⟩ := hmoved.attained
  exact antisymm_of le (hmoved.furthest member (hperm.mem_iff.2 hmember) n hget)
    (hextreme.furthest other (hperm.mem_iff.1 hother) m hfound)

theorem Extreme.isFinite {le : Int → Int → Prop} {field : Field}
    (hextreme : Extreme le field members n)
    (hfinite : ∀ member ∈ members, member.hasFiniteNumbers = true) : n.isFinite = true := by
  obtain ⟨member, hmember, hget⟩ := hextreme.attained
  exact Record.finite_of_get? (hfinite member hmember) hget

theorem ValuesOf.eq_filterMap {field : Field} {values : List Value}
    (hvalues : ValuesOf field members values) :
    values = members.filterMap fun member => member.get? field := by
  induction hvalues with
  | nil => rfl
  | cons hget _ ih => simp only [List.filterMap_cons, hget, ← ih]

theorem ValuesOf.perm {field : Field} {moved : List Record} {values others : List Value}
    (hvalues : ValuesOf field members values) (hothers : ValuesOf field moved others)
    (hperm : moved.Perm members) : others.Perm values := by
  rw [hvalues.eq_filterMap, hothers.eq_filterMap]
  exact hperm.filterMap _

/-- The order of members does not show in extremes and counts. -/
theorem ApplyRule.Summarises.numEq {moved : List Record} {m : Binary64}
    (hsum : rule.token ≠ .sum) (havg : rule.token ≠ .avg) (hn : rule.Summarises members n)
    (hm : rule.Summarises moved m) (hperm : moved.Perm members)
    (hfinite : ∀ member ∈ members, member.hasFiniteNumbers = true) : n.numEq m = true := by
  have hmoved : ∀ member ∈ moved, member.hasFiniteNumbers = true :=
    fun member hmember => hfinite member (hperm.mem_iff.1 hmember)
  cases htoken : rule.token with
  | max =>
      have hleft := hn.greatest htoken
      have hright := hm.greatest htoken
      exact (numEq_iff_valueUnits (hleft.isFinite hfinite) (hright.isFinite hmoved)).2
        (hleft.unique hright hperm)
  | min =>
      have hleft := hn.least htoken
      have hright := hm.least htoken
      exact (numEq_iff_valueUnits (hleft.isFinite hfinite) (hright.isFinite hmoved)).2
        (hleft.unique hright hperm)
  | count =>
      obtain ⟨values, count, hvalues, hcount, rfl, -⟩ := hn.count htoken
      obtain ⟨others, other, hothers, hother, rfl, -⟩ := hm.count htoken
      rw [hcount.eq_of_perm hother (hvalues.perm hothers hperm)]
      exact numEq_self (nearest_ne_nan _ _ _)
  | sum => exact absurd htoken hsum
  | avg => exact absurd htoken havg

end Groups

/-! ## Groups of runs -/

/-- A run on records has this group, and this row for it. -/
structure Plan.ShowsGroup (plan : Plan) (records members : List Record) (row : Row) : Prop where
  group : ∃ groups, groupsOf plan.transform.group (plan.matching records) = .ok groups ∧
    members ∈ groups
  row : groupRow plan members = .ok row

theorem mem_records_of_mem_classesBy {plan : Plan} {records members : List Record}
    (hmembers : members ∈ classesBy (keyOf plan.transform.group) (plan.matching records)) :
    ∀ member ∈ members, member ∈ records :=
  fun _ hmember => Plan.mem_of_mem_matching (mem_of_mem_classesBy hmembers hmember)

namespace Plan.Grouped

variable {found : Plan} (hgrouped : found.Grouped) {records members : List Record} {row : Row}
  (hkind : ∀ record ∈ records, record.kind = found.kind)

include hgrouped hkind

theorem groupsOf_matching :
    groupsOf found.transform.group (found.matching records) =
      .ok (classesBy (keyOf found.transform.group) (found.matching records)) :=
  groupsOf_eq fun record hrecord field hfield => (hgrouped.transform.group_kind field hfield).trans
    (hkind record (Plan.mem_of_mem_matching hrecord)).symm

theorem showsGroup_iff :
    found.ShowsGroup records members row ↔
      members ∈ classesBy (keyOf found.transform.group) (found.matching records) ∧
        groupRow found members = .ok row := by
  constructor
  · rintro ⟨⟨groups, hgroups, hmembers⟩, hrow⟩
    cases hgroups.symm.trans (hgrouped.groupsOf_matching hkind)
    exact ⟨hmembers, hrow⟩
  · rintro ⟨hmembers, hrow⟩
    exact ⟨⟨_, hgrouped.groupsOf_matching hkind, hmembers⟩, hrow⟩

theorem exists_row
    (hmembers : members ∈ classesBy (keyOf found.transform.group) (found.matching records)) :
    ∃ row, found.ShowsGroup records members row := by
  obtain ⟨row, hrow⟩ := hgrouped.proper.exists_groupRow hgrouped.transform
    (ne_nil_of_mem_classesBy hmembers) fun member hmember =>
      hkind member (mem_records_of_mem_classesBy hmembers member hmember)
  exact ⟨row, (hgrouped.showsGroup_iff hkind).2 ⟨hmembers, hrow⟩⟩

/-- The row of a group has the number of every rule, and it says what the rule's token asks. -/
theorem exists_summary (hfinite : ∀ record ∈ records, record.hasFiniteNumbers = true)
    (hshows : found.ShowsGroup records members row) {rule : ApplyRule}
    (hrule : rule ∈ found.transform.apply) :
    ∃ n, row.get? rule.name = some (.number n) ∧ rule.Summarises members n := by
  obtain ⟨hmembers, hrow⟩ := (hgrouped.showsGroup_iff hkind).1 hshows
  have hsub := mem_records_of_mem_classesBy hmembers
  obtain ⟨n, happlies, hcell⟩ := hgrouped.apply_cell hrow hrule
  refine ⟨n, hcell, happlies.summarises (hgrouped.transform.accepts rule hrule)
    (ne_nil_of_mem_classesBy hmembers) ?_
    fun member hmember => hfinite member (hsub member hmember)⟩
  exact fun member hmember => (hgrouped.transform.apply_kind rule hrule).trans
    (hkind member (hsub member hmember)).symm

/-- Records that change places keep their groups, up to the order of members. -/
theorem exists_moved (hfinite : ∀ record ∈ records, record.hasFiniteNumbers = true)
    {moved : List Record} (hperm : moved.Perm records)
    (hshows : found.ShowsGroup records members row) :
    ∃ others otherRow, found.ShowsGroup moved others otherRow ∧ others.Perm members ∧
      ∀ a ∈ members, ∀ b ∈ others, sameIn found.transform.group a b = true := by
  obtain ⟨hmembers, -⟩ := (hgrouped.showsGroup_iff hkind).1 hshows
  have hsub := mem_records_of_mem_classesBy hmembers
  have hmoved : ∀ record ∈ moved, record.kind = found.kind :=
    fun record hrecord => hkind record (hperm.mem_iff.1 hrecord)
  obtain ⟨others, hothers, hsame, hkey⟩ :=
    exists_classesBy_perm (found.matching_perm hperm) hmembers
  obtain ⟨otherRow, hrow⟩ := hgrouped.exists_row hmoved hothers
  -- both groups are classes of one key, which says that their members agree on the group fields
  refine ⟨others, otherRow, hrow, hsame, fun a ha b hb => ?_⟩
  have hb' := hsame.mem_iff.1 hb
  have hfields : ∀ record ∈ members, ∀ field ∈ found.transform.group, field.kind = record.kind :=
    fun record hrecord field hfield => (hgrouped.transform.group_kind field hfield).trans
      (hkind record (hsub record hrecord)).symm
  exact (sameIn_iff (hfields a ha) (hfields b hb') (hfinite a (hsub a ha))
    (hfinite b (hsub b hb'))).2 (hkey a ha b hb)

/-- The rows of a run are those of its groups. -/
theorem mem_rows_iff {maxRows : Nat} {rows : List Row}
    (hrows : found.rows maxRows (found.matching records) = .ok rows) :
    row ∈ rows ↔ ∃ members, found.ShowsGroup records members row := by
  have hall : List.Forall₂ (fun members row => groupRow found members = .ok row)
      (classesBy (keyOf found.transform.group) (found.matching records)) rows := by
    rcases hgrouped.proper.made_rows (fun record hrecord =>
      hkind record (Plan.mem_of_mem_matching hrecord)) hrows with ⟨hplain, -⟩ | ⟨-, hall⟩
    · exact absurd (congrArg Transform.group hplain) hgrouped.transform.group_ne_nil
    · exact hall
  constructor
  · intro hrow
    obtain ⟨members, hmembers, hmade⟩ := exists_of_mem_forall₂ hall.flip hrow
    exact ⟨members, (hgrouped.showsGroup_iff hkind).2 ⟨hmembers, hmade⟩⟩
  · rintro ⟨members, hshows⟩
    obtain ⟨hmembers, hmade⟩ := (hgrouped.showsGroup_iff hkind).1 hshows
    obtain ⟨other, hother, hsame⟩ := exists_of_mem_forall₂ hall hmembers
    cases hmade.symm.trans hsame
    exact hother

end Plan.Grouped

variable {registry : Registry} {document : Json} {found : Plan}

/-- In whatever order the records of a dataset come, every group of a query with a transformation
has a row, which shows for each MAX and MIN rule the furthest number of a member and for each COUNT
rule how many distinct values the members have. The group of the same key has the same members in
every order and, as numbers, the same extremes and counts. -/
theorem groups_show_extremes_and_counts {store : Store} (hstore : store.Reachable)
    (hplan : plan registry document = .ok found) (htransforms : Transforms document)
    {dataset : Dataset} (hdataset : store.get? found.datasetId = some dataset)
    (hkind : dataset.kind = found.kind) {moved : List Record}
    (hperm : moved.Perm dataset.records) :
    (∃ groups, groupsOf found.transform.group (found.matching moved) = .ok groups ∧
      ∀ members ∈ groups, ∃ row, found.ShowsGroup moved members row) ∧
    (∀ other : Store, other.recordsOf? found.datasetId = some moved →
      ∀ maxRows output, found.run maxRows other = .ok output →
        ∀ row, row ∈ output.rows ↔ ∃ members, found.ShowsGroup moved members row) ∧
    (∀ members row, found.ShowsGroup moved members row → ∀ rule ∈ found.transform.apply,
      ∃ n, row.get? rule.name = some (.number n) ∧ rule.Summarises members n) ∧
    ∀ members row, found.ShowsGroup dataset.records members row →
      ∃ others otherRow, found.ShowsGroup moved others otherRow ∧ others.Perm members ∧
        (∀ a ∈ members, ∀ b ∈ others, sameIn found.transform.group a b = true) ∧
        ∀ rule ∈ found.transform.apply, rule.token ≠ .sum → rule.token ≠ .avg →
          ∃ n m, row.get? rule.name = some (.number n) ∧
            otherRow.get? rule.name = some (.number m) ∧ n.numEq m = true := by
  have hgrouped := grouped_of_plan hplan htransforms
  have hwell := hstore.wellFormed.well_formed dataset (Store.mem_of_get? hdataset).1
  have hall : ∀ record ∈ dataset.records, record.kind = found.kind :=
    fun record hrecord => (hwell.of_kind record hrecord).trans hkind
  have hmoved : ∀ record ∈ moved, record.kind = found.kind :=
    fun record hrecord => hall record (hperm.mem_iff.1 hrecord)
  have hfinite : ∀ record ∈ moved, record.hasFiniteNumbers = true :=
    fun record hrecord => hwell.finite record (hperm.mem_iff.1 hrecord)
  refine ⟨⟨_, hgrouped.groupsOf_matching hmoved, fun _ => hgrouped.exists_row hmoved⟩, ?_, ?_, ?_⟩
  · intro other hrecords maxRows output hrun row
    obtain ⟨records, hsame, hrunOn⟩ := Plan.run_eq_ok_iff.1 hrun
    cases hsame.symm.trans hrecords
    obtain ⟨-, rows, hrows, rfl⟩ := Plan.runOn_eq_ok_iff.1 hrunOn
    rw [Plan.mem_arrange, hgrouped.mem_rows_iff hmoved hrows]
  · intro members row hshows rule hrule
    exact hgrouped.exists_summary hmoved hfinite hshows hrule
  · intro members row hshows
    obtain ⟨others, otherRow, hother, hsame, hkey⟩ :=
      hgrouped.exists_moved hall hwell.finite hperm hshows
    refine ⟨others, otherRow, hother, hsame, hkey, fun rule hrule hsum havg => ?_⟩
    obtain ⟨n, hn, hleft⟩ := hgrouped.exists_summary hall hwell.finite hshows hrule
    obtain ⟨m, hm, hright⟩ := hgrouped.exists_summary hmoved hfinite hother hrule
    have hmembers := ((hgrouped.showsGroup_iff hall).1 hshows).1
    exact ⟨n, m, hn, hm, hleft.numEq hsum havg hright hsame fun member hmember =>
      hwell.finite member (mem_records_of_mem_classesBy hmembers member hmember)⟩

/-! ## The least average of a department -/

def leastAverages : Json :=
  .object [("WHERE", .object []),
    ("OPTIONS", .object [("COLUMNS",
      .array [.string "courses_dept", .string "least", .string "averages"])]),
    ("TRANSFORMATIONS", .object [("GROUP", .array [.string "courses_dept"]),
      ("APPLY", .array [.object [("least", .object [("MIN", .string "courses_avg")])],
        .object [("averages", .object [("COUNT", .string "courses_avg")])]])])]

def leastAveragesPlan : Plan where
  datasetId := "courses"
  kind := .sections
  filter := none
  columns := [⟨"courses_dept", .field (.section .dept)⟩, ⟨"least", .apply "least"⟩,
    ⟨"averages", .apply "averages"⟩]
  order := none
  transform := ⟨[.section .dept], [⟨"least", .min, .section .avg⟩,
    ⟨"averages", .count, .section .avg⟩]⟩

theorem plan_leastAverages (averages : List Binary64) :
    plan (storeOf averages).registry leastAverages = .ok leastAveragesPlan := by
  have hdept : Bound.Refers ⟨"courses", .sections⟩ "courses_dept" (.section .dept) :=
    ⟨rfl, by decide, by decide, by decide⟩
  have hleast : ApplyRule.WrittenBy ⟨"courses", .sections⟩ ⟨"least", .min, .section .avg⟩
      (.object [("least", .object [("MIN", .string "courses_avg")])]) :=
    .rule (by decide) (by decide) refers_average (.inr rfl)
  have hcount : ApplyRule.WrittenBy ⟨"courses", .sections⟩ ⟨"averages", .count, .section .avg⟩
      (.object [("averages", .object [("COUNT", .string "courses_avg")])]) :=
    .rule (by decide) (by decide) refers_average (.inl rfl)
  have htransform : Transform.WrittenBy ⟨"courses", .sections⟩ leastAveragesPlan.transform
      (.object [("GROUP", .array [.string "courses_dept"]),
        ("APPLY", .array [.object [("least", .object [("MIN", .string "courses_avg")])],
          .object [("averages", .object [("COUNT", .string "courses_avg")])]])]) :=
    @Transform.WrittenBy.groupApply _ ["courses_dept"] _ _ _ (by decide) (.cons hdept .nil)
      (.cons hleast (.cons hcount .nil)) (by decide) (by decide)
  have hcolumns : ColumnsWrittenBy ⟨"courses", .sections⟩ (some leastAveragesPlan.transform)
      leastAveragesPlan.columns
      (.array [.string "courses_dept", .string "least", .string "averages"]) := by
    refine ⟨rfl, by simp [leastAveragesPlan], ?_, by decide, by decide⟩
    intro column hcolumn
    have happlied : ∀ rule ∈ leastAveragesPlan.transform.apply,
        (ColumnSource.apply rule.name).NamedBy ⟨"courses", .sections⟩
          (some leastAveragesPlan.transform) rule.name :=
      fun _ hrule => .applied rfl hrule
    rcases List.mem_cons.1 hcolumn with rfl | hcolumn
    · exact .reference hdept
    rcases List.mem_cons.1 hcolumn with rfl | hcolumn
    · exact happlied _ List.mem_cons_self
    · rw [List.mem_singleton.1 hcolumn]
      exact happlied _ (List.mem_cons_of_mem _ List.mem_cons_self)
  have hwritten := Plan.WrittenBy.transformed .everything htransform (.unordered hcolumns)
    (by intro source; rfl)
  have hregistered : (storeOf averages).registry "courses" = some .sections := rfl
  exact plan_eq_ok_iff.2 (Plan.ofDocument_eq_ok_iff.2 ⟨_, hregistered, hwritten⟩)

/-- The sections of a department with two zeros among their averages. -/
def zeroSections : List Record := [.ofNat 90, 0, .signedZero true].map sectionOf

/-- Backwards the other zero is met first, which is no other least average. -/
theorem least_of_zeros_backwards :
    ∃ dataset, (storeOf [.ofNat 90, 0, .signedZero true]).Reachable ∧
      plan (storeOf [.ofNat 90, 0, .signedZero true]).registry leastAverages =
        .ok leastAveragesPlan ∧
      Transforms leastAverages ∧
      (storeOf [.ofNat 90, 0, .signedZero true]).get? leastAveragesPlan.datasetId =
        some dataset ∧
      dataset.kind = leastAveragesPlan.kind ∧ zeroSections.reverse.Perm dataset.records ∧
      ∃ row others otherRow, leastAveragesPlan.ShowsGroup dataset.records zeroSections row ∧
        leastAveragesPlan.ShowsGroup zeroSections.reverse others otherRow ∧
        others.Perm zeroSections ∧
        ∃ n m, row.get? "least" = some (.number n) ∧ otherRow.get? "least" = some (.number m) ∧
          n.numEq m = true ∧ Extreme (· ≥ ·) (.section .avg) others m := by
  have hfinite : ∀ average ∈ [.ofNat 90, 0, .signedZero true],
      Binary64.isFinite average = true := by
    decide +kernel
  have hstore : (storeOf [.ofNat 90, 0, .signedZero true]).Reachable :=
    reachable_storeOf (by simp) hfinite
  have hplan := plan_leastAverages [.ofNat 90, 0, .signedZero true]
  have htransforms : Transforms leastAverages := ⟨_, rfl, by simp⟩
  have hdataset : (storeOf [.ofNat 90, 0, .signedZero true]).get? leastAveragesPlan.datasetId =
      some ⟨"courses", .sections, zeroSections⟩ := rfl
  obtain ⟨⟨groups, hgroups, hrows⟩, -⟩ :=
    groups_show_extremes_and_counts hstore hplan htransforms hdataset rfl (.refl _)
  -- all sections are of one department, so they are one group
  have hone : groupsOf [.section .dept] zeroSections = .ok [zeroSections] := by decide +kernel
  cases hgroups.symm.trans hone
  obtain ⟨row, hrow⟩ := hrows zeroSections List.mem_cons_self
  obtain ⟨-, -, hsummary, hkeep⟩ :=
    groups_show_extremes_and_counts hstore hplan htransforms hdataset rfl zeroSections.reverse_perm
  obtain ⟨others, otherRow, hother, hsame, -, hnumbers⟩ := hkeep zeroSections row hrow
  obtain ⟨n, m, hn, hm, hequal⟩ :=
    hnumbers ⟨"least", .min, .section .avg⟩ List.mem_cons_self (by decide) (by decide)
  obtain ⟨found, hfound, hleast⟩ :=
    hsummary others otherRow hother ⟨"least", .min, .section .avg⟩ List.mem_cons_self
  cases hfound.symm.trans hm
  exact ⟨_, hstore, hplan, htransforms, hdataset, rfl, zeroSections.reverse_perm, row, others,
    otherRow, hrow, hother, hsame, n, m, hn, hm, hequal, hleast.least rfl⟩

end CampusQuery.Query
