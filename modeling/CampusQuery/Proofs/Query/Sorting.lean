import CampusQuery.Proofs.Query.CellTypes
import Mathlib.Data.String.Basic
import Mathlib.Data.Sum.Order

/-!
# Sorted rows

The cells of a row under the sort keys make its rank, and ranks are in a linear
order. Rows with all keys and without NaN compare as their ranks do, so sorting
them gives the one list in the order of ranks in which ties keep their order.
-/

namespace CampusQuery

/-! ## Stable sorting -/

section Sorting

variable {α β : Type} [DecidableEq β] {le : β → β → Prop} {rank : α → β}
  {items sorted other : List α}

/-- A permutation in the order of ranks, in which items of one rank keep their order. -/
structure StablySorted (le : β → β → Prop) (rank : α → β) (items sorted : List α) : Prop where
  perm : sorted.Perm items
  ordered : sorted.Pairwise fun a b => le (rank a) (rank b)
  stable : ∀ r, (sorted.filter fun a => rank a = r) = items.filter fun a => rank a = r

/-- A comparison that is one of ranks sorts stably. -/
theorem stablySorted_mergeSort [Std.Total le] [IsTrans β le] {precedes : α → α → Bool}
    (hprecedes : ∀ a ∈ items, ∀ b ∈ items, precedes a b = true ↔ le (rank a) (rank b)) :
    StablySorted le rank items (items.mergeSort precedes) := by
  classical
  -- on all items, the comparison of ranks is one that sorts
  let byRank : α → α → Bool := fun a b => le (rank a) (rank b)
  have htrans : ∀ a b c, byRank a b = true → byRank b c = true → byRank a c = true := by
    intro a b c hab hbc
    exact decide_eq_true (IsTrans.trans _ _ _ (of_decide_eq_true hab) (of_decide_eq_true hbc))
  have htotal : ∀ a b, (byRank a b || byRank b a) = true := by
    intro a b
    rw [Bool.or_eq_true]
    exact (Std.Total.total (rank a) (rank b)).imp decide_eq_true decide_eq_true
  have hsame : items.mergeSort precedes = items.mergeSort byRank := by
    have hmap := @List.map_mergeSort _ _ precedes byRank id items fun a ha b hb => by
      rw [Bool.eq_iff_iff, hprecedes a ha b hb]
      exact decide_eq_true_iff.symm
    rwa [List.map_id, List.map_id] at hmap
  rw [hsame]
  refine ⟨List.mergeSort_perm _ _, ?_, fun r => ?_⟩
  · exact (List.pairwise_mergeSort htrans htotal items).imp of_decide_eq_true
  · -- items of one rank are in order already, so they stay a sublist
    have hties : (items.filter fun a => rank a = r).Pairwise fun a b => byRank a b = true := by
      refine List.pairwise_of_forall_mem_list fun a ha b hb => ?_
      have ha := of_decide_eq_true (List.mem_filter.1 ha).2
      have hb := of_decide_eq_true (List.mem_filter.1 hb).2
      exact decide_eq_true (ha.trans hb.symm ▸ refl_of le (rank b))
    have hsub := (List.sublist_mergeSort htrans htotal hties List.filter_sublist).filter
      fun a => decide (rank a = r)
    rw [List.filter_filter] at hsub
    simp only [Bool.and_self] at hsub
    refine (hsub.eq_of_length ?_).symm
    exact ((List.mergeSort_perm items byRank).filter _).length_eq.symm

/-- Lists in order are told apart by their items or by the order of their ties. -/
theorem eq_of_same_ties [Std.Antisymm le] (hperm : sorted.Perm other)
    (hsorted : sorted.Pairwise fun a b => le (rank a) (rank b))
    (hother : other.Pairwise fun a b => le (rank a) (rank b))
    (hties : ∀ r, (sorted.filter fun a => rank a = r) = other.filter fun a => rank a = r) :
    sorted = other := by
  induction sorted generalizing other with
  | nil => exact hperm.nil_eq
  | cons a rest ih =>
      cases other with
      | nil => exact absurd hperm.symm.nil_eq (List.cons_ne_nil a rest).symm
      | cons b others =>
          obtain ⟨hfirst, hrest⟩ := List.pairwise_cons.1 hsorted
          obtain ⟨hhead, hothers⟩ := List.pairwise_cons.1 hother
          -- both heads are least, so they tie, and the first of a tie is the same in both
          have hrank : rank a = rank b := by
            rcases List.mem_cons.1 (hperm.subset List.mem_cons_self) with rfl | ha
            · rfl
            rcases List.mem_cons.1 (hperm.symm.subset List.mem_cons_self) with rfl | hb
            · rfl
            exact Std.Antisymm.antisymm _ _ (hfirst b hb) (hhead a ha)
          have hhere := hties (rank a)
          rw [List.filter_cons_of_pos (by simp), List.filter_cons_of_pos (by simp [hrank])] at hhere
          obtain ⟨rfl, -⟩ := List.cons.inj hhere
          rw [ih hperm.cons_inv hrest hothers fun r => ?_]
          have hrow := hties r
          by_cases hr : rank a = r
          · rw [List.filter_cons_of_pos (by simp [hr]),
              List.filter_cons_of_pos (by simp [hr])] at hrow
            exact (List.cons.inj hrow).2
          · rwa [List.filter_cons_of_neg (by simp [hr]),
              List.filter_cons_of_neg (by simp [hr])] at hrow

/-- There is one stably sorted list. -/
theorem StablySorted.unique [Std.Antisymm le] (hsorted : StablySorted le rank items sorted)
    (hother : StablySorted le rank items other) : other = sorted :=
  eq_of_same_ties (hother.perm.trans hsorted.perm.symm) hother.ordered hsorted.ordered
    fun r => (hother.stable r).trans (hsorted.stable r).symm

end Sorting

/-! ## Ranks -/

open Numeric Binary64

/-- Numbers by their places, texts by the code points of their characters. -/
abbrev CellRank : Type := WithBot (WithTop ℤ) ⊕ₗ List Char

def Value.rank : Value → CellRank
  | .number n => Sum.inlₗ n.place
  | .text t => Sum.inrₗ t.toList

theorem Value.rank_number_lt_iff {m n : Binary64} :
    (number m).rank < (number n).rank ↔ m.place < n.place := Sum.Lex.inl_lt_inl_iff

theorem Value.rank_text_lt_iff {t u : String} : (text t).rank < (text u).rank ↔ t < u :=
  Sum.Lex.inr_lt_inr_iff.trans String.lt_iff_toList_lt.symm

theorem Value.rank_number_lt_text (n : Binary64) (t : String) :
    (number n).rank < (text t).rank := Sum.Lex.inl_lt_inr _ _

namespace Query

theorem compareCells_eq_cmp {x y : Value} (hx : x ≠ .number .nan) (hy : y ≠ .number .nan) :
    Row.compareCells x y = cmp x.rank y.rank := by
  cases x with
  | number m =>
      cases y with
      | number n =>
          have hm : m ≠ .nan := fun hnan => hx (hnan ▸ rfl)
          have hn : n ≠ .nan := fun hnan => hy (hnan ▸ rfl)
          rw [Row.compareCells, compare?_eq_cmp hm hn, Option.getD_some]
          exact (cmp_congr Value.rank_number_lt_iff Value.rank_number_lt_iff).symm
      | text u => exact ((cmp_eq_lt_iff _ _).2 (Value.rank_number_lt_text m u)).symm
  | text t =>
      cases y with
      | number n => exact ((cmp_eq_gt_iff _ _).2 (Value.rank_number_lt_text n t)).symm
      | text u =>
          rw [Row.compareCells, ← cmp_eq_compare]
          exact (cmp_congr Value.rank_text_lt_iff Value.rank_text_lt_iff).symm

namespace Row

/-- The ranks of the cells under some keys, as far as the row has them. -/
def ranks (keys : List String) (row : Row) : List CellRank :=
  keys.filterMap fun key => (row.get? key).map Value.rank

/-- A row with a cell under every key, none of which is NaN. -/
def Complete (keys : List String) (row : Row) : Prop :=
  ∀ key ∈ keys, ∃ value, row.get? key = some value ∧ value ≠ .number .nan

theorem ranks_cons {key : String} {keys : List String} {row : Row} {value : Value}
    (hvalue : row.get? key = some value) :
    row.ranks (key :: keys) = value.rank :: row.ranks keys := by
  unfold ranks
  rw [List.filterMap_cons_some]
  rw [hvalue, Option.map_some]

/-- The comparison by keys is that of ranks, key after key. -/
theorem compareByKeys_iff {keys : List String} {a b : Row} (ha : a.Complete keys)
    (hb : b.Complete keys) :
    (compareByKeys a b keys = .lt ↔ a.ranks keys < b.ranks keys) ∧
      (compareByKeys a b keys = .eq ↔ a.ranks keys = b.ranks keys) ∧
      (compareByKeys a b keys = .gt ↔ b.ranks keys < a.ranks keys) := by
  induction keys with
  | nil => simp [compareByKeys, ranks]
  | cons key keys ih =>
      obtain ⟨x, hx, hxnum⟩ := ha key List.mem_cons_self
      obtain ⟨y, hy, hynum⟩ := hb key List.mem_cons_self
      obtain ⟨hlt, heq, hgt⟩ := ih (fun other hother => ha other (List.mem_cons_of_mem key hother))
        fun other hother => hb other (List.mem_cons_of_mem key hother)
      have hkey : compareBy key a b = cmp x.rank y.rank := by
        rw [compareBy, hx, hy]
        exact compareCells_eq_cmp hxnum hynum
      rw [compareByKeys, hkey, ranks_cons hx, ranks_cons hy, Ordering.then_eq_lt,
        Ordering.then_eq_eq, Ordering.then_eq_gt, cmp_eq_lt_iff, cmp_eq_eq_iff, cmp_eq_gt_iff,
        List.cons_lt_cons_iff, List.cons_lt_cons_iff, List.cons_eq_cons, hlt, heq, hgt]
      exact ⟨Iff.rfl, Iff.rfl, or_congr_right (and_congr_left fun _ => eq_comm)⟩

end Row

/-- Upwards or downwards. -/
def Direction.le {α : Type} [LE α] : Direction → α → α → Prop
  | .up => fun a b => a ≤ b
  | .down => fun a b => b ≤ a

namespace Row

theorem mayPrecede_iff {order : OrderSpec} {a b : Row} (ha : a.Complete order.keys)
    (hb : b.Complete order.keys) :
    mayPrecede order a b = true ↔ order.direction.le (a.ranks order.keys) (b.ranks order.keys) := by
  obtain ⟨hlt, -, hgt⟩ := compareByKeys_iff ha hb
  unfold mayPrecede
  cases order.direction with
  | up =>
      rw [bne_iff_ne, ne_eq, hgt]
      exact not_lt
  | down =>
      rw [bne_iff_ne, ne_eq, hlt]
      exact not_lt

/-- Rows that an order compares throughout: every row has a cell under every key, no column mixes
texts and numbers or has a NaN, and the comparison is one of ranks, hence a total preorder. -/
structure Comparable (order : OrderSpec) (rows : List Row) : Prop where
  present : ∀ row ∈ rows, ∀ key ∈ order.keys, ∃ value, row.get? key = some value
  unmixed : ∀ column, ∃ type, ∀ row ∈ rows, ∀ value, row.get? column = some value →
    value.HasType type
  by_ranks : ∀ a ∈ rows, ∀ b ∈ rows,
    (compareByKeys a b order.keys = .lt ↔ a.ranks order.keys < b.ranks order.keys) ∧
      (compareByKeys a b order.keys = .eq ↔ a.ranks order.keys = b.ranks order.keys) ∧
      (compareByKeys a b order.keys = .gt ↔ b.ranks order.keys < a.ranks order.keys)
  total : ∀ a ∈ rows, ∀ b ∈ rows, mayPrecede order a b = true ∨ mayPrecede order b a = true
  trans : ∀ a ∈ rows, ∀ b ∈ rows, ∀ c ∈ rows, mayPrecede order a b = true →
    mayPrecede order b c = true → mayPrecede order a c = true
  antisymm : ∀ a ∈ rows, ∀ b ∈ rows, mayPrecede order a b = true → mayPrecede order b a = true →
    a.ranks order.keys = b.ranks order.keys

end Row

instance Direction.total_le {α : Type} [LinearOrder α] (direction : Direction) :
    Std.Total (direction.le : α → α → Prop) where
  total a b := by
    cases direction with
    | up => exact le_total a b
    | down => exact le_total b a

instance Direction.trans_le {α : Type} [LinearOrder α] (direction : Direction) :
    IsTrans α direction.le where
  trans a b c hab hbc := by
    cases direction with
    | up => exact le_trans hab hbc
    | down => exact le_trans hbc hab

instance Direction.antisymm_le {α : Type} [LinearOrder α] (direction : Direction) :
    Std.Antisymm (direction.le : α → α → Prop) where
  antisymm a b hab hba := by
    cases direction with
    | up => exact le_antisymm hab hba
    | down => exact le_antisymm hba hab

namespace Row

theorem comparable_of_complete {order : OrderSpec} {rows : List Row}
    (hcomplete : ∀ row ∈ rows, row.Complete order.keys)
    (hunmixed : ∀ column, ∃ type, ∀ row ∈ rows, ∀ value, row.get? column = some value →
      value.HasType type) : Comparable order rows where
  present row hrow key hkey := by
    obtain ⟨value, hvalue, -⟩ := hcomplete row hrow key hkey
    exact ⟨value, hvalue⟩
  unmixed := hunmixed
  by_ranks a ha b hb := compareByKeys_iff (hcomplete a ha) (hcomplete b hb)
  total a ha b hb := by
    rw [mayPrecede_iff (hcomplete a ha) (hcomplete b hb),
      mayPrecede_iff (hcomplete b hb) (hcomplete a ha)]
    exact Std.Total.total _ _
  trans a ha b hb c hc := by
    rw [mayPrecede_iff (hcomplete a ha) (hcomplete b hb),
      mayPrecede_iff (hcomplete b hb) (hcomplete c hc),
      mayPrecede_iff (hcomplete a ha) (hcomplete c hc)]
    exact IsTrans.trans _ _ _
  antisymm a ha b hb := by
    rw [mayPrecede_iff (hcomplete a ha) (hcomplete b hb),
      mayPrecede_iff (hcomplete b hb) (hcomplete a ha)]
    exact Std.Antisymm.antisymm _ _

end Row

/-! ## Runs -/

variable {registry : Registry} {bound : Bound} {document : Json} {found : Plan}

/-- The keys of an order are names of columns. -/
theorem OptionsWrittenBy.key_mem {transform : Option Transform} {columns : List Column}
    {order : OrderSpec} {json : Json}
    (hwritten : OptionsWrittenBy bound transform columns (some order) json) {key : String}
    (hkey : key ∈ order.keys) : key ∈ columns.map Column.name := by
  cases hwritten with
  | ordered _ horder =>
      cases horder with
      | key hcolumn =>
          rw [List.mem_singleton.1 hkey]
          exact hcolumn
      | directed _ hcolumns _ => exact hcolumns key hkey

theorem Plan.WrittenBy.key_mem (hwritten : found.WrittenBy bound document) {order : OrderSpec}
    (horder : found.order = some order) {key : String} (hkey : key ∈ order.keys) :
    key ∈ found.columnNames := by
  cases hwritten with
  | plain _ hoptions =>
      obtain rfl := horder
      exact hoptions.key_mem hkey
  | transformed _ _ hoptions _ =>
      obtain rfl := horder
      exact hoptions.key_mem hkey

/-- Typed rows can be sorted by columns. -/
theorem Plan.comparable_of_typed {plan : Plan} {order : OrderSpec} {rows : List Row}
    (hkeys : ∀ key ∈ order.keys, key ∈ plan.columnNames)
    (htyped : ∀ row ∈ rows, plan.TypedRow row) :
    (∀ row ∈ rows, row.Complete order.keys) ∧ Row.Comparable order rows := by
  have hcomplete : ∀ row ∈ rows, row.Complete order.keys := by
    intro row hrow key hkey
    obtain ⟨column, hcolumn, rfl⟩ := List.mem_map.1 (hkeys key hkey)
    obtain ⟨value, hvalue, htype⟩ := (htyped row hrow).cell column hcolumn
    refine ⟨value, hvalue, ?_⟩
    rintro rfl
    exact htype.2 rfl
  refine ⟨hcomplete, Row.comparable_of_complete hcomplete fun name => ?_⟩
  by_cases hname : name ∈ plan.columnNames
  · obtain ⟨column, hcolumn, rfl⟩ := List.mem_map.1 hname
    refine ⟨column.source.type, fun row hrow value hvalue => ?_⟩
    obtain ⟨own, hown, htype⟩ := (htyped row hrow).cell column hcolumn
    cases hvalue.symm.trans hown
    exact htype
  · -- a row has no cell under other names
    refine ⟨.text, fun row hrow value hvalue => absurd ?_ hname⟩
    rw [← (htyped row hrow).columns]
    exact List.mem_map_of_mem (Json.mem_of_lookup? hvalue)

/-- A run with an order returns the one stable sort of the rows that were made, and these rows
compare throughout. -/
theorem order_sorts_stably {store : Store} (hstore : store.Reachable)
    (hplan : plan registry document = .ok found) {order : OrderSpec}
    (horder : found.order = some order) {maxRows : Nat} {output : Output}
    (hrun : found.run maxRows store = .ok output) (hcounted : output.scanned < 2 ^ 64) :
    ∃ records rows, store.recordsOf? found.datasetId = some records ∧
      found.rows maxRows (found.matching records) = .ok rows ∧
      StablySorted order.direction.le (Row.ranks order.keys) rows output.rows ∧
      (∀ other, StablySorted order.direction.le (Row.ranks order.keys) rows other →
        other = output.rows) ∧
      Row.Comparable order rows := by
  obtain ⟨records, hrecords, hrunOn⟩ := Plan.run_eq_ok_iff.1 hrun
  obtain ⟨hcheck, rows, hrows, rfl⟩ := Plan.runOn_eq_ok_iff.1 hrunOn
  obtain ⟨dataset, hdataset, rfl⟩ := Option.map_eq_some_iff.1 hrecords
  have hwell := hstore.wellFormed.well_formed dataset (Store.mem_of_get? hdataset).1
  have hsub : ∀ record ∈ found.matching dataset.records, record ∈ dataset.records :=
    fun record => Plan.mem_of_mem_matching
  have htyped := (proper_of_plan hplan).typed_rows
    (fun record hrecord => Plan.kind_of_checkKind hwell hcheck record (hsub record hrecord))
    (fun record hrecord => hwell.finite record (hsub record hrecord))
    ((found.matching_sublist dataset.records).length_le.trans_lt hcounted) hrows
  obtain ⟨_, -, hwritten⟩ := Plan.ofDocument_eq_ok_iff.1 (plan_eq_ok_iff.1 hplan)
  obtain ⟨hcomplete, hcomparable⟩ :=
    Plan.comparable_of_typed (fun key => hwritten.key_mem horder) htyped
  have hsorted : StablySorted order.direction.le (Row.ranks order.keys) rows
      (found.arrange rows) := by
    unfold Plan.arrange
    rw [horder]
    exact stablySorted_mergeSort fun a ha b hb =>
      Row.mayPrecede_iff (hcomplete a ha) (hcomplete b hb)
  exact ⟨_, rows, hrecords, hrows, hsorted, fun other => hsorted.unique, hcomparable⟩

def averagesDown : Json :=
  .object [("WHERE", .object []),
    ("OPTIONS", .object [("COLUMNS", .array [.string "courses_avg"]),
      ("ORDER", .object [("dir", .string "DOWN"), ("keys", .array [.string "courses_avg"])])])]

def averagesDownPlan : Plan where
  datasetId := "courses"
  kind := .sections
  filter := none
  columns := [⟨"courses_avg", .field (.section .avg)⟩]
  order := some ⟨["courses_avg"], .down⟩
  transform := .none

theorem plan_averagesDown (averages : List Binary64) :
    plan (storeOf averages).registry averagesDown = .ok averagesDownPlan := by
  have hcolumns : ColumnsWrittenBy ⟨"courses", .sections⟩ none averagesDownPlan.columns
      (.array [.string "courses_avg"]) := by
    refine ⟨rfl, by simp [averagesDownPlan], ?_, by decide, by decide⟩
    intro column hcolumn
    rw [List.mem_singleton.1 hcolumn]
    exact .reference refers_average
  have horder : OrderSpec.WrittenBy ["courses_avg"] ⟨["courses_avg"], .down⟩
      (.object [("dir", .string "DOWN"), ("keys", .array [.string "courses_avg"])]) :=
    .directed (by decide) (by decide) (.refl _)
  have hwritten := Plan.WrittenBy.plain .everything (.ordered hcolumns horder)
  have hregistered : (storeOf averages).registry "courses" = some .sections := rfl
  exact plan_eq_ok_iff.2 (Plan.ofDocument_eq_ok_iff.2 ⟨_, hregistered, hwritten⟩)

/-- The row that shows an average. -/
def averageRow (average : Binary64) : Row := ⟨[("courses_avg", .number average)]⟩

theorem arrange_zeros :
    averagesDownPlan.arrange [averageRow 0, averageRow (.ofNat 90), averageRow (.signedZero true)] =
      [averageRow (.ofNat 90), averageRow 0, averageRow (.signedZero true)] := by
  have hbelow : (averageRow 0).mayPrecede ⟨["courses_avg"], .down⟩
      (averageRow (.ofNat 90)) = false := by
    decide +kernel
  have habove : (averageRow (.ofNat 90)).mayPrecede ⟨["courses_avg"], .down⟩
      (averageRow (.signedZero true)) = true := by
    decide +kernel
  have htie : (averageRow 0).mayPrecede ⟨["courses_avg"], .down⟩
      (averageRow (.signedZero true)) = true := by
    decide +kernel
  simp [Plan.arrange, averagesDownPlan, Row.sort, List.mergeSort,
    List.MergeSort.Internal.splitInTwo, hbelow, habove, htie]

/-- Downwards, the two zeros come last and keep their order. -/
theorem zeros_keep_their_order :
    ∃ output, (storeOf [0, .ofNat 90, .signedZero true]).Reachable ∧
      plan (storeOf [0, .ofNat 90, .signedZero true]).registry averagesDown =
        .ok averagesDownPlan ∧
      averagesDownPlan.run 10 (storeOf [0, .ofNat 90, .signedZero true]) = .ok output ∧
      output.scanned < 2 ^ 64 ∧
      output.rows = [averageRow (.ofNat 90), averageRow 0, averageRow (.signedZero true)] ∧
      ∃ rows, StablySorted Direction.down.le (Row.ranks ["courses_avg"]) rows output.rows ∧
        Row.Comparable ⟨["courses_avg"], .down⟩ rows := by
  have hfinite : ∀ average ∈ [0, .ofNat 90, .signedZero true],
      Binary64.isFinite average = true := by
    decide +kernel
  have hstore : (storeOf [0, .ofNat 90, .signedZero true]).Reachable :=
    reachable_storeOf (by simp) hfinite
  have hrows : averagesDownPlan.rows 10 ([0, .ofNat 90, .signedZero true].map sectionOf) =
      .ok [averageRow 0, averageRow (.ofNat 90), averageRow (.signedZero true)] := by
    decide +kernel
  have hrun : averagesDownPlan.run 10 (storeOf [0, .ofNat 90, .signedZero true]) =
      .ok ⟨[averageRow (.ofNat 90), averageRow 0, averageRow (.signedZero true)], 3, 3⟩ := by
    rw [averagesDownPlan.run_of_checked 10 rfl rfl, ← arrange_zeros]
    exact congrArg (Except.map _) hrows
  have hplan := plan_averagesDown [0, .ofNat 90, .signedZero true]
  obtain ⟨_, rows, -, -, hsorted, -, hcomparable⟩ :=
    order_sorts_stably hstore hplan rfl hrun (by decide)
  exact ⟨_, hstore, hplan, hrun, by decide, rfl, rows, hsorted, hcomparable⟩

end Query

end CampusQuery
