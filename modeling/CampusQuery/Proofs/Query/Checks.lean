import CampusQuery.Query.Reference
import Mathlib.Data.List.Forall2

/-!
# Checks and the dataset they bind

A check runs either before or after its document has bound a dataset. It is
coherent when that makes no difference: with the dataset bound in advance it
answers what it answers when it has to bind the dataset itself.
-/

namespace CampusQuery.Query

variable {α β : Type} {registry : Registry}

/-! ## Answers -/

namespace Answer

variable {ε : Type}

theorem bind_eq_ok_iff {answer : Except ε α} {next : α → Except ε β} {b : β} :
    answer >>= next = .ok b ↔ ∃ a, answer = .ok a ∧ next a = .ok b := by
  cases answer <;> simp [bind, Except.bind]

theorem bind_eq_error_iff {answer : Except ε α} {next : α → Except ε β} {error : ε} :
    answer >>= next = .error error ↔
      answer = .error error ∨ ∃ a, answer = .ok a ∧ next a = .error error := by
  cases answer <;> simp [bind, Except.bind]

theorem map_eq_ok_iff {answer : Except ε α} {f : α → β} {b : β} :
    answer.map f = .ok b ↔ ∃ a, answer = .ok a ∧ f a = b := by
  cases answer <;> simp [Except.map]

theorem mapError_eq_ok_iff {ε' : Type} {answer : Except ε α} {f : ε → ε'} {a : α} :
    answer.mapError f = .ok a ↔ answer = .ok a := by
  cases answer <;> simp [Except.mapError]

theorem mapM_eq_ok_iff {f : α → Except ε β} {items : List α} {answers : List β} :
    items.mapM f = .ok answers ↔
      List.Forall₂ (fun item answer => f item = .ok answer) items answers := by
  induction items generalizing answers with
  | nil =>
      rw [List.mapM_nil, List.forall₂_nil_left_iff]
      constructor
      · intro hrun
        cases hrun
        rfl
      · intro hempty
        rw [hempty]
        rfl
  | cons item rest ih =>
      rw [List.mapM_cons, bind_eq_ok_iff]
      constructor
      · intro hrun
        obtain ⟨answer, hanswer, hrest⟩ := hrun
        obtain ⟨others, hothers, hend⟩ := bind_eq_ok_iff.1 hrest
        cases hend
        exact .cons hanswer (ih.1 hothers)
      · intro hall
        obtain ⟨answer, others, hanswer, hothers, rfl⟩ := List.forall₂_cons_left_iff.1 hall
        exact ⟨answer, hanswer, bind_eq_ok_iff.2 ⟨others, ih.2 hothers, rfl⟩⟩

theorem exists_mapM {f : α → Except ε β} {items : List α}
    (hall : ∀ item ∈ items, ∃ answer, f item = .ok answer) :
    ∃ answers, items.mapM f = .ok answers := by
  induction items with
  | nil => exact ⟨[], rfl⟩
  | cons item rest ih =>
      obtain ⟨answer, hanswer⟩ := hall item List.mem_cons_self
      obtain ⟨answers, hanswers⟩ := ih fun other hother => hall other (List.mem_cons_of_mem _ hother)
      exact ⟨answer :: answers, mapM_eq_ok_iff.2 (.cons hanswer (mapM_eq_ok_iff.1 hanswers))⟩

/-- The error of a list is that of the first item that has one. -/
theorem mapM_eq_error_iff {f : α → Except ε β} {items : List α} {error : ε} :
    items.mapM f = .error error ↔
      ∃ before item after, items = before ++ item :: after ∧
        (∀ other ∈ before, ∃ answer, f other = .ok answer) ∧ f item = .error error := by
  induction items with
  | nil => simp [pure, Except.pure]
  | cons first rest ih =>
      rw [List.mapM_cons, bind_eq_error_iff]
      constructor
      · intro hrun
        rcases hrun with hfirst | ⟨answer, hfirst, hrest⟩
        · exact ⟨[], first, rest, rfl, nofun, hfirst⟩
        · rcases bind_eq_error_iff.1 hrest with hrest | ⟨others, -, hend⟩
          · obtain ⟨before, item, after, rfl, hbefore, hitem⟩ := ih.1 hrest
            exact ⟨first :: before, item, after, rfl,
              List.forall_mem_cons.2 ⟨⟨answer, hfirst⟩, hbefore⟩, hitem⟩
          · exact nomatch hend
      · intro hsplit
        obtain ⟨before, item, after, hitems, hbefore, hitem⟩ := hsplit
        cases before with
        | nil =>
            cases hitems
            exact .inl hitem
        | cons other before =>
            cases hitems
            obtain ⟨⟨answer, hfirst⟩, hbefore⟩ := List.forall_mem_cons.1 hbefore
            exact .inr ⟨answer, hfirst,
              bind_eq_error_iff.2 (.inl (ih.2 ⟨before, item, after, rfl, hbefore, hitem⟩))⟩

theorem mapM_congr {f g : α → Except ε β} {items : List α}
    (hsame : ∀ item ∈ items, f item = g item) : items.mapM f = items.mapM g := by
  induction items with
  | nil => rfl
  | cons first rest ih =>
      obtain ⟨hfirst, hrest⟩ := List.forall_mem_cons.1 hsame
      rw [List.mapM_cons, List.mapM_cons, hfirst, ih hrest]

end Answer

/-! ## Running checks -/

namespace Check

theorem run_bind_eq_ok_iff {check : Check α} {next : α → Check β} {state : Option Bound}
    {result : β × Option Bound} :
    (check >>= next).run state = .ok result ↔
      ∃ a middle, check.run state = .ok (a, middle) ∧ (next a).run middle = .ok result := by
  rw [StateT.run_bind]
  cases hcheck : check.run state with
  | error violation => simp [bind, Except.bind]
  | ok pair =>
      obtain ⟨a, middle⟩ := pair
      simp [bind, Except.bind, and_assoc]

theorem run_pure_eq_ok_iff {a b : α} {state next : Option Bound} :
    (pure a : Check α).run state = .ok (b, next) ↔ b = a ∧ next = state := by
  constructor
  · intro h
    cases h
    exact ⟨rfl, rfl⟩
  · intro hsame
    obtain ⟨rfl, rfl⟩ := hsame
    rfl

theorem run_map_eq_ok_iff {f : α → β} {check : Check α} {b : β} {state next : Option Bound} :
    (f <$> check).run state = .ok (b, next) ↔ ∃ a, check.run state = .ok (a, next) ∧ b = f a := by
  rw [map_eq_pure_bind, run_bind_eq_ok_iff]
  constructor
  · intro h
    obtain ⟨a, middle, ha, hend⟩ := h
    obtain ⟨rfl, rfl⟩ := run_pure_eq_ok_iff.1 hend
    exact ⟨a, ha, rfl⟩
  · intro h
    obtain ⟨a, ha, hb⟩ := h
    exact ⟨a, next, ha, run_pure_eq_ok_iff.2 ⟨hb, rfl⟩⟩

theorem run_throw_eq_ok_iff {violation : Violation} {state : Option Bound}
    {result : α × Option Bound} :
    (throw violation : Check α).run state = .ok result ↔ False :=
  ⟨fun h => (nomatch h), False.elim⟩

theorem run_lift_eq_ok_iff {answer : Except Violation α} {a : α} {state next : Option Bound} :
    (liftM answer : Check α).run state = .ok (a, next) ↔ answer = .ok a ∧ next = state := by
  cases answer with
  | error violation => exact ⟨fun h => (nomatch h), fun h => (nomatch h.1)⟩
  | ok b =>
      constructor
      · intro h
        cases h
        exact ⟨rfl, rfl⟩
      · intro hresult
        obtain ⟨hb, rfl⟩ := hresult
        cases hb
        rfl

theorem run_get_eq_ok_iff {found state next : Option Bound} :
    (get : Check (Option Bound)).run state = .ok (found, next) ↔ found = state ∧ next = state := by
  constructor
  · intro h
    cases h
    exact ⟨rfl, rfl⟩
  · intro hsame
    obtain ⟨rfl, rfl⟩ := hsame
    rfl

theorem run_set_eq_ok_iff {state next last : Option Bound} {done : PUnit} :
    (set next : Check PUnit).run state = .ok (done, last) ↔ last = next := by
  constructor
  · intro h
    cases h
    rfl
  · rintro rfl
    rfl

end Check

/-! ## Coherent checks -/

/-- The dataset is bound already, or none is and the registry knows it. -/
def Reaches (registry : Registry) (state : Option Bound) (bound : Bound) : Prop :=
  state = some bound ∨ state = none ∧ registry bound.datasetId = some bound.kind

theorem reaches_some_iff {bound other : Bound} :
    Reaches registry (some other) bound ↔ other = bound := by
  simp [Reaches]

theorem reaches_none_iff {bound : Bound} :
    Reaches registry none bound ↔ registry bound.datasetId = some bound.kind := by
  simp [Reaches]

/-- A coherent check binds a dataset of the registry at most once and never another, and it does
not matter for its answer whether that dataset was bound before. -/
structure Coherent (registry : Registry) (check : Check α) : Prop where
  keeps : ∀ {bound a next}, check.run (some bound) = .ok (a, next) → next = some bound
  opens : ∀ {state a next bound}, check.run state = .ok (a, next) →
    Reaches registry next bound → Reaches registry state bound
  agrees : ∀ {state bound a}, Reaches registry state bound →
    (check.run (some bound) = .ok (a, some bound) ↔
      ∃ next, check.run state = .ok (a, next) ∧ Reaches registry next bound)

namespace Coherent

/-- A check that neither reads nor writes the bound dataset is coherent. -/
theorem of_stateless {check : Check α} (answers : α → Prop)
    (hrun : ∀ {state a next}, check.run state = .ok (a, next) ↔ answers a ∧ next = state) :
    Coherent registry check where
  keeps h := (hrun.1 h).2
  opens h hreach := (hrun.1 h).2 ▸ hreach
  agrees {state bound a} hreach := by
    constructor
    · intro h
      exact ⟨state, hrun.2 ⟨(hrun.1 h).1, rfl⟩, hreach⟩
    · intro hfound
      obtain ⟨next, h, _⟩ := hfound
      exact hrun.2 ⟨(hrun.1 h).1, rfl⟩

protected theorem pure (a : α) : Coherent registry (pure a : Check α) :=
  of_stateless (· = a) Check.run_pure_eq_ok_iff

protected theorem throw (violation : Violation) :
    Coherent registry (throw violation : Check α) :=
  of_stateless (fun _ => False)
    ⟨fun h => (Check.run_throw_eq_ok_iff.1 h).elim, fun h => h.1.elim⟩

protected theorem lift (answer : Except Violation α) :
    Coherent registry (liftM answer : Check α) :=
  of_stateless (answer = .ok ·) Check.run_lift_eq_ok_iff

/-- One coherent check after another is coherent. -/
protected theorem bind {check : Check α} {next : α → Check β} (hcheck : Coherent registry check)
    (hnext : ∀ a, Coherent registry (next a)) : Coherent registry (check >>= next) where
  keeps {bound b last} h := by
    obtain ⟨a, middle, hfirst, hsecond⟩ := Check.run_bind_eq_ok_iff.1 h
    obtain rfl := hcheck.keeps hfirst
    exact (hnext a).keeps hsecond
  opens {state b last bound} h hreach := by
    obtain ⟨a, middle, hfirst, hsecond⟩ := Check.run_bind_eq_ok_iff.1 h
    exact hcheck.opens hfirst ((hnext a).opens hsecond hreach)
  agrees {state bound b} hreach := by
    simp only [Check.run_bind_eq_ok_iff]
    constructor
    · intro hrun
      obtain ⟨a, middle, hfirst, hsecond⟩ := hrun
      obtain rfl := hcheck.keeps hfirst
      obtain ⟨after, hafter, hreached⟩ := (hcheck.agrees hreach).1 hfirst
      obtain ⟨last, hlast, hend⟩ := ((hnext a).agrees hreached).1 hsecond
      exact ⟨last, ⟨a, after, hafter, hlast⟩, hend⟩
    · intro hrun
      obtain ⟨last, ⟨a, after, hafter, hlast⟩, hend⟩ := hrun
      -- what the second check reaches, the first must have left within reach
      have hreached := (hnext a).opens hlast hend
      exact ⟨a, some bound, (hcheck.agrees hreach).2 ⟨after, hafter, hreached⟩,
        ((hnext a).agrees hreached).2 ⟨last, hlast, hend⟩⟩

end Coherent

end CampusQuery.Query
