import CampusQuery.Query.Grouping
import Mathlib.Data.List.Perm.Basic

/-!
# Classes of a list

Items put behind those of their key, one after the other, end up in classes: the
items of one key, class by class in the order in which the keys are first met.
Whatever the keys are, only which items share one decides on the classes.
-/

namespace CampusQuery.Query

variable {α κ : Type} [DecidableEq κ] {key : α → κ} {items : List α}

/-- The places of items that are put behind those of their key. -/
def placesBy (key : α → κ) (places : List (κ × Array α)) (items : List α) :
    List (κ × Array α) :=
  items.foldl (fun places item => putMember (key item) item places) places

def classesBy (key : α → κ) (items : List α) : List (List α) :=
  (placesBy key [] items).map fun place => place.2.toList

/-! ## Class after class -/

/-- The first place takes in the items of its key, and the others never come to see them. -/
theorem placesBy_cons (key : α → κ) (k : κ) (members : Array α) (places : List (κ × Array α))
    (items : List α) :
    placesBy key ((k, members) :: places) items =
      (k, (members.toList ++ items.filter fun item => key item = k).toArray) ::
        placesBy key places (items.filter fun item => key item ≠ k) := by
  unfold placesBy
  induction items generalizing members places with
  | nil => simp
  | cons item rest ih =>
      rw [List.foldl_cons, putMember]
      by_cases hkey : key item = k
      · rw [if_pos hkey.symm, ih]
        simp [hkey]
      · rw [if_neg (Ne.symm hkey), ih]
        simp [hkey]

/-- The first class is that of the first item; the others are the classes of what it leaves. -/
theorem classesBy_cons (key : α → κ) (item : α) (rest : List α) :
    classesBy key (item :: rest) =
      (item :: rest.filter fun other => key other = key item) ::
        classesBy key (rest.filter fun other => key other ≠ key item) := by
  have hplaces : placesBy key [] (item :: rest) = placesBy key [(key item, #[item])] rest := rfl
  rw [classesBy, hplaces, placesBy_cons]
  rfl

/-- Induction on a list by taking the class of its first item off. -/
@[elab_as_elim]
theorem classInduction (key : α → κ) {motive : List α → Prop} (nil : motive [])
    (cons : ∀ item rest, motive (rest.filter fun other => key other ≠ key item) →
      motive (item :: rest)) (items : List α) : motive items :=
  match items with
  | [] => nil
  | item :: rest => cons item rest (classInduction key nil cons _)
termination_by items.length
decreasing_by exact Nat.lt_succ_of_le (List.length_filter_le _ _)

/-- An item that is not of the first item's key has its class among those of the others. -/
theorem filter_eq_of_ne {item other : α} {rest : List α} (hne : key other ≠ key item) :
    (rest.filter fun third => key third ≠ key item).filter (fun third => key third = key other) =
      (item :: rest).filter fun third => key third = key other := by
  rw [List.filter_cons, if_neg (by simpa using hne.symm), List.filter_filter]
  refine List.filter_congr fun third _ => ?_
  by_cases hthird : key third = key other
  · simp [hthird, hne]
  · simp [hthird]

/-! ## Members of a class -/

theorem mem_classesBy_iff {members : List α} :
    members ∈ classesBy key items ↔
      ∃ item ∈ items, members = items.filter fun other => key other = key item := by
  induction items using classInduction key with
  | nil => simp [classesBy, placesBy]
  | cons item rest ih =>
      rw [classesBy_cons, List.mem_cons, ih]
      constructor
      · rintro (rfl | ⟨other, hother, rfl⟩)
        · exact ⟨item, List.mem_cons_self, by simp⟩
        · obtain ⟨hrest, hne⟩ := List.mem_filter.1 hother
          exact ⟨other, List.mem_cons_of_mem _ hrest, filter_eq_of_ne (by simpa using hne)⟩
      · rintro ⟨other, hother, rfl⟩
        by_cases hkey : key other = key item
        · exact .inl (by simp [hkey])
        · have hrest : other ∈ rest := by
            rcases List.mem_cons.1 hother with rfl | hrest
            · exact absurd rfl hkey
            · exact hrest
          exact .inr ⟨other, List.mem_filter.2 ⟨hrest, by simpa using hkey⟩,
            (filter_eq_of_ne hkey).symm⟩

/-- A class is made up of the items that share the key of any one of its members. -/
theorem eq_filter_of_mem_classesBy {members : List α} (hclass : members ∈ classesBy key items)
    {item : α} (hitem : item ∈ members) :
    members = items.filter fun other => key other = key item := by
  obtain ⟨first, -, rfl⟩ := mem_classesBy_iff.1 hclass
  have hkey : key item = key first := by simpa using (List.mem_filter.1 hitem).2
  rw [hkey]

theorem ne_nil_of_mem_classesBy {members : List α} (hclass : members ∈ classesBy key items) :
    members ≠ [] := by
  obtain ⟨first, hfirst, rfl⟩ := mem_classesBy_iff.1 hclass
  exact List.ne_nil_of_mem (List.mem_filter.2 ⟨hfirst, by simp⟩)

theorem mem_of_mem_classesBy {members : List α} (hclass : members ∈ classesBy key items)
    {item : α} (hitem : item ∈ members) : item ∈ items := by
  rw [eq_filter_of_mem_classesBy hclass hitem] at hitem
  exact List.mem_of_mem_filter hitem

/-- The classes hold every item as often as the list does. -/
theorem flatten_classesBy_perm (key : α → κ) (items : List α) :
    (classesBy key items).flatten.Perm items := by
  induction items using classInduction key with
  | nil => exact .nil
  | cons item rest ih =>
      rw [classesBy_cons, List.flatten_cons, List.cons_append]
      refine .cons item ((ih.append_left _).trans ?_)
      simpa using List.filter_append_perm (fun other => decide (key other = key item)) rest

/-- When items change places, each class keeps its key and, up to their order, its members. -/
theorem exists_classesBy_perm {moved members : List α} (hperm : moved.Perm items)
    (hclass : members ∈ classesBy key items) :
    ∃ others ∈ classesBy key moved, others.Perm members ∧
      ∀ a ∈ members, ∀ b ∈ others, key a = key b := by
  obtain ⟨item, hitem, rfl⟩ := mem_classesBy_iff.1 hclass
  refine ⟨_, mem_classesBy_iff.2 ⟨item, hperm.mem_iff.2 hitem, rfl⟩, hperm.filter _, ?_⟩
  intro a ha b hb
  have ha := of_decide_eq_true (List.mem_filter.1 ha).2
  have hb := of_decide_eq_true (List.mem_filter.1 hb).2
  exact ha.trans hb.symm

/-! ## The order of classes -/

theorem findIdx_congr {p q : α → Bool} (hsame : ∀ item ∈ items, p item = q item) :
    items.findIdx p = items.findIdx q := by
  induction items with
  | nil => rfl
  | cons item rest ih =>
      rw [List.findIdx_cons, List.findIdx_cons, hsame item List.mem_cons_self,
        ih fun other hother => hsame other (List.mem_cons_of_mem _ hother)]

/-- What comes first among the kept items comes first among all. -/
theorem findIdx_lt_of_filter {first second kept : α → Bool}
    (hfirst : ∀ item, first item = true → kept item = true)
    (hsecond : ∀ item, second item = true → kept item = true)
    (hlt : (items.filter kept).findIdx first < (items.filter kept).findIdx second) :
    items.findIdx first < items.findIdx second := by
  induction items with
  | nil => exact hlt
  | cons item rest ih =>
      by_cases hkept : kept item = true
      · rw [List.filter_cons_of_pos hkept, List.findIdx_cons, List.findIdx_cons] at hlt
        rw [List.findIdx_cons, List.findIdx_cons]
        cases hone : first item with
        | false =>
            cases htwo : second item with
            | false =>
                rw [hone, htwo] at hlt
                exact Nat.succ_lt_succ (ih (Nat.lt_of_succ_lt_succ hlt))
            | true =>
                rw [htwo] at hlt
                exact absurd hlt (Nat.not_lt_zero _)
        | true =>
            cases htwo : second item with
            | false => exact Nat.succ_pos _
            | true =>
                rw [hone, htwo] at hlt
                exact absurd hlt (Nat.lt_irrefl _)
      · have hone : first item = false := by
          by_contra hsome
          exact hkept (hfirst item (by simpa using hsome))
        have htwo : second item = false := by
          by_contra hsome
          exact hkept (hsecond item (by simpa using hsome))
        rw [List.filter_cons_of_neg hkept] at hlt
        simpa [List.findIdx_cons, hone, htwo] using ih hlt

/-- The classes come in the order in which the list first meets them. -/
theorem pairwise_classesBy (key : α → κ) (items : List α) :
    (classesBy key items).Pairwise fun earlier later => ∀ a ∈ earlier, ∀ b ∈ later,
      (items.findIdx fun other => key other = key a) <
        items.findIdx fun other => key other = key b := by
  induction items using classInduction key with
  | nil => exact .nil
  | cons item rest ih =>
      -- members of the later classes do not have the key of the first
      have hlater : ∀ members ∈ classesBy key (rest.filter fun other => key other ≠ key item),
          ∀ b ∈ members, key b ≠ key item := by
        intro members hmembers b hb
        rw [eq_filter_of_mem_classesBy hmembers hb, List.mem_filter] at hb
        simpa using (List.mem_filter.1 hb.1).2
      rw [classesBy_cons, List.pairwise_cons]
      constructor
      · intro members hmembers a ha b hb
        have hfirst : key a = key item := by
          rcases List.mem_cons.1 ha with rfl | ha
          · rfl
          · simpa using (List.mem_filter.1 ha).2
        have hb := hlater members hmembers b hb
        simp [List.findIdx_cons, hfirst, hb.symm]
      · refine ih.imp_of_mem fun {earlier later} hearlier hlast hpair a ha b hb => ?_
        have ha' := hlater earlier hearlier a ha
        have hb' := hlater later hlast b hb
        have hlt := findIdx_lt_of_filter (by simp +contextual [ha']) (by simp +contextual [hb'])
          (hpair a ha b hb)
        simpa [List.findIdx_cons, ha'.symm, hb'.symm] using hlt

/-- Keys that tell the same items apart make the same classes. -/
theorem classesBy_congr {κ' : Type} [DecidableEq κ'] {key' : α → κ'} (items : List α)
    (hsame : ∀ a ∈ items, ∀ b ∈ items, key a = key b ↔ key' a = key' b) :
    classesBy key items = classesBy key' items := by
  induction items using classInduction key with
  | nil => rfl
  | cons item rest ih =>
      have hitem : ∀ other ∈ rest, key other = key item ↔ key' other = key' item :=
        fun other hother => hsame other (List.mem_cons_of_mem _ hother) item List.mem_cons_self
      have hin : (rest.filter fun other => key other = key item) =
          rest.filter fun other => key' other = key' item :=
        List.filter_congr fun other hother => by simp [hitem other hother]
      have hout : (rest.filter fun other => key other ≠ key item) =
          rest.filter fun other => key' other ≠ key' item :=
        List.filter_congr fun other hother => by simp [hitem other hother]
      rw [classesBy_cons, classesBy_cons, hin, ← hout, ih]
      intro a ha b hb
      exact hsame a (List.mem_cons_of_mem _ (List.mem_of_mem_filter ha)) b
        (List.mem_cons_of_mem _ (List.mem_of_mem_filter hb))

/-! ## Partitions -/

/-- The classes of a list under a relation, each in list order and all in the order in which the
list first meets them. -/
structure Partitions (same : α → α → Bool) (items : List α) (classes : List (List α)) : Prop where
  filled : ∀ members ∈ classes, members ≠ []
  members_eq : ∀ members ∈ classes, ∀ item ∈ members, members = items.filter (same item)
  exactly_one : ∀ item ∈ items, ∃! members, members ∈ classes ∧ item ∈ members
  together_iff : ∀ a ∈ items, ∀ b ∈ items,
    (∃ members ∈ classes, a ∈ members ∧ b ∈ members) ↔ same a b = true
  perm : classes.flatten.Perm items
  first_met : classes.Pairwise fun earlier later => ∀ a ∈ earlier, ∀ b ∈ later,
    items.findIdx (same a) < items.findIdx (same b)

theorem Partitions.same_of_mem {same : α → α → Bool} {classes : List (List α)}
    (hpartitions : Partitions same items classes) {members : List α} (hmembers : members ∈ classes)
    {a b : α} (ha : a ∈ members) (hb : b ∈ members) : same a b = true := by
  rw [hpartitions.members_eq members hmembers a ha] at hb
  exact (List.mem_filter.1 hb).2

theorem partitions_classesBy {same : α → α → Bool}
    (hsame : ∀ a ∈ items, ∀ b ∈ items, same a b = true ↔ key a = key b) :
    Partitions same items (classesBy key items) := by
  have hmem : ∀ members ∈ classesBy key items, ∀ item ∈ members, item ∈ items :=
    fun _ hmembers _ hitem => mem_of_mem_classesBy hmembers hitem
  have hshared : ∀ item ∈ items, ∀ other ∈ items,
      decide (key other = key item) = same item other := by
    intro item hitem other hother
    rw [Bool.eq_iff_iff, hsame item hitem other hother, decide_eq_true_iff, eq_comm]
  have hown : ∀ item ∈ items, item ∈ items.filter fun other => key other = key item :=
    fun item hitem => List.mem_filter.2 ⟨hitem, by simp⟩
  refine ⟨fun members => ne_nil_of_mem_classesBy, ?_, ?_, ?_, flatten_classesBy_perm key items, ?_⟩
  · intro members hmembers item hitem
    rw [← List.filter_congr (hshared item (hmem members hmembers item hitem))]
    exact eq_filter_of_mem_classesBy hmembers hitem
  · intro item hitem
    refine ⟨_, ⟨mem_classesBy_iff.2 ⟨item, hitem, rfl⟩, hown item hitem⟩, ?_⟩
    intro members hmembers
    exact eq_filter_of_mem_classesBy hmembers.1 hmembers.2
  · intro a ha b hb
    rw [hsame a ha b hb]
    constructor
    · rintro ⟨members, hmembers, hain, hbin⟩
      rw [eq_filter_of_mem_classesBy hmembers hain] at hbin
      simpa [eq_comm] using (List.mem_filter.1 hbin).2
    · intro hkey
      refine ⟨_, mem_classesBy_iff.2 ⟨a, ha, rfl⟩, hown a ha, ?_⟩
      rw [hkey]
      exact hown b hb
  · refine (pairwise_classesBy key items).imp_of_mem fun hearlier hlater hpair a ha b hb => ?_
    have hidx : ∀ item ∈ items,
        (items.findIdx fun other => key other = key item) = items.findIdx (same item) :=
      fun item hitem => findIdx_congr (hshared item hitem)
    rw [← hidx a (hmem _ hearlier a ha), ← hidx b (hmem _ hlater b hb)]
    exact hpair a ha b hb

end CampusQuery.Query
