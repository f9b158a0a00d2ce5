import CampusQuery.Proofs.Query.Grammar

/-!
# Reading `TRANSFORMATIONS`

With the dataset bound, `GROUP` and `APPLY` are read exactly from what the
grammar writes, and the transformation that is read is proper.
-/

namespace CampusQuery.Query

variable {registry : Registry} {bound : Bound} {state : Option Bound}

namespace Check

theorem asKey_eq_ok_iff {part : Part} {value : Json} {key : String} :
    asKey part value = .ok key ↔ value = .string key := by
  cases value <;> simp [asKey]

theorem checkKeys_eq_ok_iff {part : Part} {layouts : List (List String)}
    {entries : List (String × Json)} {done : Unit} :
    checkKeys part layouts entries = .ok done ↔ entries.map Prod.fst ∈ layouts := by
  unfold checkKeys
  dsimp only
  split
  next hfound => simpa using hfound
  next hmissing => simpa using hmissing

theorem keys_eq_cons_iff {entries : List (String × Json)} {key : String} {keys : List String} :
    entries.map Prod.fst = key :: keys ↔
      ∃ value rest, entries = (key, value) :: rest ∧ rest.map Prod.fst = keys := by
  rw [List.map_eq_cons_iff]
  constructor
  · intro h
    obtain ⟨⟨_, value⟩, rest, rfl, rfl, hrest⟩ := h
    exact ⟨value, rest, rfl, hrest⟩
  · intro h
    obtain ⟨value, rest, rfl, hrest⟩ := h
    exact ⟨_, rest, rfl, rfl, hrest⟩

end Check

theorem ne_nil_congr_mem {α : Type} {items others : List α}
    (hsame : ∀ item, item ∈ items ↔ item ∈ others) : items ≠ [] ↔ others ≠ [] := by
  simp only [ne_eq, List.eq_nil_iff_forall_not_mem, hsame]

theorem exists_of_mem_forall₂ {α β : Type} {relation : α → β → Prop} {left : List α}
    {right : List β} (hall : List.Forall₂ relation left right) {a : α} (ha : a ∈ left) :
    ∃ b ∈ right, relation a b := by
  induction hall with
  | nil => exact absurd ha List.not_mem_nil
  | cons hhead _ ih =>
      rcases List.mem_cons.1 ha with rfl | ha
      · exact ⟨_, List.mem_cons_self, hhead⟩
      · obtain ⟨b, hb, hrelated⟩ := ih ha
        exact ⟨b, List.mem_cons_of_mem _ hb, hrelated⟩

theorem exists_forall₂ {α β : Type} {relation : α → β → Prop} {right : List β}
    (hall : ∀ b ∈ right, ∃ a, relation a b) : ∃ left, List.Forall₂ relation left right := by
  induction right with
  | nil => exact ⟨[], .nil⟩
  | cons b rest ih =>
      obtain ⟨⟨a, ha⟩, hrest⟩ := List.forall_mem_cons.1 hall
      obtain ⟨left, hleft⟩ := ih hrest
      exact ⟨a :: left, .cons ha hleft⟩

theorem forall_mem_iff_of_forall₂ {α β : Type} {relation : α → β → Prop} {left : List α}
    {right : List β} (hall : List.Forall₂ relation left right) {first : α → Prop}
    {second : β → Prop} (hiff : ∀ a ∈ left, ∀ b, relation a b → (second b ↔ first a)) :
    (∀ b ∈ right, second b) ↔ ∀ a ∈ left, first a := by
  constructor
  · intro hright a ha
    obtain ⟨b, hb, hrelated⟩ := exists_of_mem_forall₂ hall ha
    exact (hiff a ha b hrelated).1 (hright b hb)
  · intro hleft b hb
    obtain ⟨a, ha, hrelated⟩ := exists_of_mem_forall₂ hall.flip hb
    exact (hiff a ha b hrelated).2 (hleft a ha)

theorem map_eq_map_of_forall₂ {α β γ : Type} {f : α → γ} {g : β → γ} {left : List α}
    {right : List β} (hall : List.Forall₂ (fun a b => f a = g b) left right) :
    left.map f = right.map g := by
  induction hall with
  | nil => rfl
  | cons hhead _ ih => rw [List.map_cons, List.map_cons, hhead, ih]

theorem forall₂_trans {α β γ : Type} {r : α → β → Prop} {s : β → γ → Prop} {t : α → γ → Prop}
    {as : List α} {bs : List β} {cs : List γ} (hcomp : ∀ a b c, r a b → s b c → t a c)
    (hfirst : List.Forall₂ r as bs) (hsecond : List.Forall₂ s bs cs) : List.Forall₂ t as cs := by
  induction hfirst generalizing cs with
  | nil => exact List.forall₂_nil_left_iff.2 (List.forall₂_nil_left_iff.1 hsecond)
  | cons hhead _ ih =>
      obtain ⟨c, rest, hc, hrest, rfl⟩ := List.forall₂_cons_left_iff.1 hsecond
      exact .cons (hcomp _ _ _ hhead hc) (ih hrest)

/-! ## Fresh names -/

section Fresh

variable {α : Type} {used names : List α} {name : α}

/-- Names that are distinct and not in use. -/
def Fresh (used names : List α) : Prop := names.Nodup ∧ ∀ name ∈ names, name ∉ used

theorem fresh_nil (used : List α) : Fresh used [] :=
  ⟨List.nodup_nil, fun _ hname => absurd hname List.not_mem_nil⟩

/-- Names are fresh one after the other, each being in use for those behind it. -/
theorem fresh_cons_iff : Fresh used (name :: names) ↔ name ∉ used ∧ Fresh (name :: used) names := by
  unfold Fresh
  rw [List.nodup_cons, List.forall_mem_cons]
  constructor
  · intro hfresh
    obtain ⟨⟨hnot, hnodup⟩, hname, hnew⟩ := hfresh
    refine ⟨hname, hnodup, ?_⟩
    intro other hother
    rw [List.mem_cons, not_or]
    exact ⟨fun heq => hnot (heq ▸ hother), hnew other hother⟩
  · intro hfresh
    obtain ⟨hname, hnodup, hnew⟩ := hfresh
    refine ⟨⟨fun hmem => hnew name hmem List.mem_cons_self, hnodup⟩, hname, ?_⟩
    exact fun other hother hmem => hnew other hother (List.mem_cons_of_mem _ hmem)

theorem fresh_nil_iff : Fresh [] names ↔ names.Nodup := by
  simp [Fresh]

end Fresh

/-! ## Group fields -/

theorem coherent_groupFields (items : List Json) : Coherent registry (groupFields registry items) := by
  induction items with
  | nil => exact .pure _
  | cons item rest ih =>
      refine (Coherent.lift _).bind fun key => (coherent_resolveField key).bind fun field => ?_
      exact ih.bind fun fields => .pure _

theorem groupFields_run_some_eq_ok_iff {items : List Json} {fields : List Field} :
    (groupFields registry items).run (some bound) = .ok (fields, state) ↔
      (∃ keys, items = keys.map Json.string ∧
        List.Forall₂ (fun field key => bound.Refers key field) fields keys) ∧
      state = some bound := by
  induction items generalizing fields state with
  | nil =>
      rw [groupFields, Check.run_pure_eq_ok_iff]
      constructor
      · intro hend
        obtain ⟨rfl, rfl⟩ := hend
        exact ⟨⟨[], rfl, .nil⟩, rfl⟩
      · intro hwritten
        obtain ⟨⟨keys, hkeys, hrefers⟩, rfl⟩ := hwritten
        obtain rfl := List.map_eq_nil_iff.1 hkeys.symm
        exact ⟨List.forall₂_nil_right_iff.1 hrefers, rfl⟩
  | cons item rest ih =>
      simp only [groupFields, Check.run_bind_eq_ok_iff, Check.run_lift_eq_ok_iff,
        Check.asKey_eq_ok_iff, Check.run_pure_eq_ok_iff]
      constructor
      · intro hrun
        obtain ⟨key, _, ⟨rfl, rfl⟩, field, _, hfield, others, _, hothers, rfl, rfl⟩ := hrun
        obtain ⟨hrefers, rfl⟩ := resolveField_run_some_eq_ok_iff.1 hfield
        obtain ⟨⟨keys, rfl, hall⟩, rfl⟩ := ih.1 hothers
        exact ⟨⟨key :: keys, rfl, .cons hrefers hall⟩, rfl⟩
      · intro hwritten
        obtain ⟨⟨keys, hkeys, hrefers⟩, rfl⟩ := hwritten
        obtain ⟨key, keys, rfl, rfl, rfl⟩ := List.map_eq_cons_iff.1 hkeys.symm
        obtain ⟨field, others, hfield, hothers, rfl⟩ := List.forall₂_cons_right_iff.1 hrefers
        exact ⟨key, _, ⟨rfl, rfl⟩, field, _, resolveField_run_some_eq_ok_iff.2 ⟨hfield, rfl⟩,
          others, _, ih.2 ⟨⟨keys, rfl, hothers⟩, rfl⟩, rfl, rfl⟩

/-- Group fields bind the dataset if none is bound yet. -/
theorem groupFields_binds {items : List Json} {fields : List Field} {before : Option Bound}
    (hfilled : items ≠ []) (hrun : (groupFields registry items).run before = .ok (fields, state)) :
    ∃ found, state = some found := by
  cases items with
  | nil => exact absurd rfl hfilled
  | cons item rest =>
      obtain ⟨key, middle, -, hrest⟩ := Check.run_bind_eq_ok_iff.1 hrun
      obtain ⟨field, _, hfield, hrest⟩ := Check.run_bind_eq_ok_iff.1 hrest
      obtain ⟨others, last, hothers, hend⟩ := Check.run_bind_eq_ok_iff.1 hrest
      -- the first field binds it and the others keep it
      obtain ⟨found, rfl, -⟩ := resolveField_run_eq_ok_iff.1 hfield
      obtain ⟨-, rfl⟩ := Check.run_pure_eq_ok_iff.1 hend
      exact ⟨found, (coherent_groupFields rest).keeps hothers⟩

/-! ## Apply rules -/

theorem ApplyToken.ofName?_eq_some_iff {text : String} {token : ApplyToken} :
    ApplyToken.ofName? text = some token ↔ token.name = text :=
  find?_name_eq_some_iff (fun token => by cases token <;> simp [ApplyToken.all])
    fun {a b} => by cases a <;> cases b <;> decide

theorem checkApplyName_eq_ok_iff {name : String} {done : Unit} :
    checkApplyName name = .ok done ↔ name ≠ "" ∧ hasSeparator name = false := by
  unfold checkApplyName
  by_cases hempty : name = "" <;> by_cases hsep : hasSeparator name = true <;>
    simp [hempty, hsep]

theorem asToken_eq_ok_iff {text : String} {token : ApplyToken} :
    asToken text = .ok token ↔ token.name = text := by
  rw [← ApplyToken.ofName?_eq_some_iff]
  unfold asToken
  split
  next found hfound => simp [hfound]
  next hnone => simp [hnone]

theorem asTarget_eq_ok_iff {token : ApplyToken} {value : Json} {key : String} :
    asTarget token value = .ok key ↔ value = .string key := by
  cases value <;> simp [asTarget]

theorem ApplyToken.accepts_eq_true_iff {token : ApplyToken} {field : Field} :
    token.accepts field = true ↔ token = .count ∨ field.fieldType = .numeric := by
  simp [accepts, Field.isNumeric]

theorem coherent_applyRule (item : Json) : Coherent registry (applyRule registry item) := by
  refine (Coherent.lift _).bind fun entry => (Coherent.lift _).bind fun _ => ?_
  refine (Coherent.lift _).bind fun body => (Coherent.lift _).bind fun token => ?_
  refine (Coherent.lift _).bind fun key => (coherent_resolveField key).bind fun field => ?_
  split
  · exact .pure _
  · exact .throw _

theorem applyRule_run_some_eq_ok_iff {item : Json} {rule : ApplyRule} :
    (applyRule registry item).run (some bound) = .ok (rule, state) ↔
      rule.WrittenBy bound item ∧ state = some bound := by
  simp only [applyRule, Check.run_bind_eq_ok_iff, Check.run_lift_eq_ok_iff,
    Check.asEntry_eq_ok_iff, checkApplyName_eq_ok_iff, asToken_eq_ok_iff, asTarget_eq_ok_iff]
  constructor
  · intro hrun
    obtain ⟨⟨name, body⟩, _, ⟨rfl, rfl⟩, _, _, ⟨⟨hname, hsep⟩, rfl⟩, ⟨_, target⟩, _, ⟨rfl, rfl⟩,
      token, _, ⟨rfl, rfl⟩, key, _, ⟨rfl, rfl⟩, field, _, hfield, hrest⟩ := hrun
    obtain ⟨hrefers, rfl⟩ := resolveField_run_some_eq_ok_iff.1 hfield
    split at hrest
    next haccepts =>
      obtain ⟨rfl, rfl⟩ := Check.run_pure_eq_ok_iff.1 hrest
      exact ⟨.rule hname hsep hrefers (ApplyToken.accepts_eq_true_iff.1 haccepts), rfl⟩
    next => exact (Check.run_throw_eq_ok_iff.1 hrest).elim
  · intro hwritten
    obtain ⟨@⟨name, key, token, field, hname, hsep, hrefers, haccepts⟩, rfl⟩ := hwritten
    refine ⟨⟨name, _⟩, _, ⟨rfl, rfl⟩, (), _, ⟨⟨hname, hsep⟩, rfl⟩, ⟨token.name, _⟩, _,
      ⟨rfl, rfl⟩, token, _, ⟨rfl, rfl⟩, key, _, ⟨rfl, rfl⟩, field, _,
      resolveField_run_some_eq_ok_iff.2 ⟨hrefers, rfl⟩, ?_⟩
    rw [if_pos (ApplyToken.accepts_eq_true_iff.2 haccepts)]
    exact Check.run_pure_eq_ok_iff.2 ⟨rfl, rfl⟩

theorem coherent_applyRules (used : List String) (items : List Json) :
    Coherent registry (applyRules registry used items) := by
  induction items generalizing used with
  | nil => exact .pure _
  | cons item rest ih =>
      refine (coherent_applyRule item).bind fun rule => ?_
      split
      · exact .throw _
      · exact (ih _).bind fun rules => .pure _

/-- Apply rules are read exactly if their names are new, among themselves too. -/
theorem applyRules_run_some_eq_ok_iff {used : List String} {items : List Json}
    {rules : List ApplyRule} :
    (applyRules registry used items).run (some bound) = .ok (rules, state) ↔
      (List.Forall₂ (ApplyRule.WrittenBy bound) rules items ∧
        Fresh used (rules.map ApplyRule.name)) ∧
      state = some bound := by
  -- every rule puts its name in use for those behind it
  induction items generalizing used rules state with
  | nil =>
      rw [applyRules, Check.run_pure_eq_ok_iff, List.forall₂_nil_right_iff]
      refine and_congr_left fun _ => (and_iff_left_of_imp ?_).symm
      intro hrules
      rw [hrules]
      exact fresh_nil used
  | cons item rest ih =>
      simp only [applyRules, Check.run_bind_eq_ok_iff, applyRule_run_some_eq_ok_iff]
      constructor
      · intro hrun
        obtain ⟨rule, _, ⟨hrule, rfl⟩, hrest⟩ := hrun
        split at hrest
        · exact (Check.run_throw_eq_ok_iff.1 hrest).elim
        next hused =>
          obtain ⟨others, _, hothers, hend⟩ := Check.run_bind_eq_ok_iff.1 hrest
          obtain ⟨⟨hall, hfresh⟩, rfl⟩ := ih.1 hothers
          obtain ⟨rfl, rfl⟩ := Check.run_pure_eq_ok_iff.1 hend
          rw [List.contains_iff_mem] at hused
          exact ⟨⟨.cons hrule hall, fresh_cons_iff.2 ⟨hused, hfresh⟩⟩, rfl⟩
      · intro hwritten
        obtain ⟨⟨hall, hfresh⟩, rfl⟩ := hwritten
        obtain ⟨rule, others, hrule, hothers, rfl⟩ := List.forall₂_cons_right_iff.1 hall
        obtain ⟨hused, hfresh⟩ := fresh_cons_iff.1 hfresh
        refine ⟨rule, _, ⟨hrule, rfl⟩, ?_⟩
        rw [if_neg (by rwa [List.contains_iff_mem]), Check.run_bind_eq_ok_iff]
        exact ⟨others, _, ih.2 ⟨⟨hothers, hfresh⟩, rfl⟩, Check.run_pure_eq_ok_iff.2 ⟨rfl, rfl⟩⟩

/-! ## Transformations -/

theorem asRules_eq_ok_iff {value : Json} {items : List Json} :
    asRules value = .ok items ↔ value = .array items := by
  cases value <;> simp [asRules]

theorem coherent_transformOf (value : Json) : Coherent registry (transformOf registry value) := by
  refine (Coherent.lift _).bind fun entries => (Coherent.lift _).bind fun _ => ?_
  refine (Coherent.lift _).bind fun items => (coherent_groupFields items).bind fun group => ?_
  refine (Coherent.lift _).bind fun rules => (coherent_applyRules _ rules).bind fun apply => ?_
  exact .pure _

theorem transformOf_binds {value : Json} {transform : Transform} {before : Option Bound}
    (hrun : (transformOf registry value).run before = .ok (transform, state)) :
    ∃ found, state = some found := by
  simp only [transformOf, Check.run_bind_eq_ok_iff, Check.run_lift_eq_ok_iff,
    Check.asItems_eq_ok_iff, Check.run_pure_eq_ok_iff] at hrun
  obtain ⟨_, _, -, _, _, -, items, _, ⟨⟨-, hfilled⟩, -⟩, group, _, hgroup, _, _, ⟨-, rfl⟩, apply, _,
    happly, -, rfl⟩ := hrun
  obtain ⟨found, rfl⟩ := groupFields_binds hfilled hgroup
  exact ⟨found, (coherent_applyRules _ _).keeps happly⟩

theorem transformOf_run_some_eq_ok_iff {value : Json} {transform : Transform} :
    (transformOf registry value).run (some bound) = .ok (transform, state) ↔
      transform.WrittenBy bound value ∧ state = some bound := by
  simp only [transformOf, Check.run_bind_eq_ok_iff, Check.run_lift_eq_ok_iff,
    Check.asObject_eq_ok_iff, Check.checkKeys_eq_ok_iff, Check.asItems_eq_ok_iff,
    asRules_eq_ok_iff, Check.run_pure_eq_ok_iff, List.mem_singleton]
  constructor
  · intro hrun
    obtain ⟨entries, _, ⟨rfl, rfl⟩, _, _, ⟨hkeys, rfl⟩, items, _, ⟨⟨hitems, hfilled⟩, rfl⟩,
      group, _, hgroup, rules, _, ⟨hrules, rfl⟩, apply, _, happly, rfl, rfl⟩ := hrun
    obtain ⟨⟨keys, rfl, hrefers⟩, rfl⟩ := groupFields_run_some_eq_ok_iff.1 hgroup
    obtain ⟨⟨hall, hnodup, hnew⟩, rfl⟩ := applyRules_run_some_eq_ok_iff.1 happly
    rw [List.forall_mem_map] at hnew
    obtain ⟨_, _, rfl, hbehind⟩ := Check.keys_eq_cons_iff.1 hkeys
    obtain ⟨_, _, rfl, hnil⟩ := Check.keys_eq_cons_iff.1 hbehind
    obtain rfl := List.map_eq_nil_iff.1 hnil
    obtain rfl := hitems
    obtain rfl := hrules
    exact ⟨.groupApply (by simpa using hfilled) hrefers hall hnodup hnew, rfl⟩
  · intro hwritten
    obtain ⟨@⟨keys, group, rules, apply, hfilled, hrefers, hall, hnodup, hnew⟩, rfl⟩ := hwritten
    exact ⟨_, _, ⟨rfl, rfl⟩, (), _, ⟨rfl, rfl⟩, keys.map .string, _,
      ⟨⟨rfl, by simpa using hfilled⟩, rfl⟩, group, _,
      groupFields_run_some_eq_ok_iff.2 ⟨⟨keys, rfl, hrefers⟩, rfl⟩, rules, _, ⟨rfl, rfl⟩, apply, _,
      applyRules_run_some_eq_ok_iff.2 ⟨⟨hall, hnodup, List.forall_mem_map.2 hnew⟩, rfl⟩, rfl, rfl⟩

/-- What holds of every transformation that is written over a kind. -/
structure Transform.Proper (kind : Kind) (transform : Transform) : Prop where
  group_ne_nil : transform.group ≠ []
  group_kind : ∀ field ∈ transform.group, field.kind = kind
  apply_kind : ∀ rule ∈ transform.apply, rule.field.kind = kind
  accepts : ∀ rule ∈ transform.apply, rule.token.accepts rule.field = true
  no_separator : ∀ rule ∈ transform.apply, hasSeparator rule.name = false
  distinct_names : (transform.apply.map ApplyRule.name).Nodup
  apart : ∀ rule ∈ transform.apply, rule.name ∉ transform.group.map Field.bareName

theorem Transform.Proper.isGrouped {kind : Kind} {transform : Transform}
    (hproper : transform.Proper kind) : transform.isGrouped = true := by
  simpa [Transform.isGrouped] using hproper.group_ne_nil

theorem Transform.WrittenBy.proper {transform : Transform} {json : Json}
    (hwritten : transform.WrittenBy bound json) : transform.Proper bound.kind := by
  obtain @⟨keys, group, rules, apply, hfilled, hgroup, happly, hnodup, hnew⟩ := hwritten
  have hrule : ∀ rule ∈ apply, ∃ json, rule.WrittenBy bound json := by
    intro rule hrule
    obtain ⟨json, -, hwritten⟩ := exists_of_mem_forall₂ happly hrule
    exact ⟨json, hwritten⟩
  refine ⟨?_, ?_, ?_, ?_, ?_, hnodup, hnew⟩
  · rintro rfl
    exact hfilled (List.forall₂_nil_left_iff.1 hgroup)
  · intro field hfield
    obtain ⟨key, -, hrefers⟩ := exists_of_mem_forall₂ hgroup hfield
    exact hrefers.of_kind
  · intro rule hmem
    obtain ⟨_, -, -, hrefers, -⟩ := hrule rule hmem
    exact hrefers.of_kind
  · intro rule hmem
    obtain ⟨_, -, -, -, haccepts⟩ := hrule rule hmem
    exact ApplyToken.accepts_eq_true_iff.2 haccepts
  · intro rule hmem
    obtain ⟨_, -, hsep, -, -⟩ := hrule rule hmem
    exact hsep

end CampusQuery.Query
