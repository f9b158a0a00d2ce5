import CampusQuery.Json.Reader
import Mathlib.Data.List.DropRight
import Mathlib.Data.List.TakeDrop

/-!
# Lists in JSON texts

How the things of an array or object stand in a text: one after another between
commas, up to a closing mark. The readers find exactly such lists. What follows
a thing is no longer than the text it stands in, so a list never has more things
than its text has characters, and the length of the text is fuel enough.
-/

namespace CampusQuery.Json.Reader

open Text (Reader)

/-- A form of text: how a thing stands before what follows it. -/
abbrev Form (α : Type) := List Char → α → List Char → Prop

variable {α : Type} {form : Form α} {reader : Reader α} {close : Char} {care : Care}
  {input rest : List Char} {things : List α}

/-- Things between commas, the last before a closing mark. Blanks may stand anywhere between. -/
inductive Listed (form : Form α) (close : Char) : Form (List α) where
  | last {input rest behind : List Char} {thing : α} (hthing : form (skipBlanks input) thing rest)
      (hclose : skipBlanks rest = close :: behind) : Listed form close input [thing] behind
  | more {input rest later behind : List Char} {thing : α} {things : List α}
      (hthing : form (skipBlanks input) thing rest) (hcomma : skipBlanks rest = ',' :: later)
      (hmore : Listed form close later things behind) :
      Listed form close input (thing :: things) behind

/-- A key, a colon, and what has the form that the key asks for. -/
inductive Keyed (care : Care) (form : String → Form α) : Form (String × α) where
  | entry {input afterKey afterColon rest : List Char} {key : List Char} {thing : α}
      (hkey : stringBody care none [] input = some (key, afterKey))
      (hcolon : skipBlanks afterKey = ':' :: afterColon)
      (hthing : form (String.ofList key) (skipBlanks afterColon) thing rest) :
      Keyed care form ('"' :: input) (String.ofList key, thing) rest

/-- A reader finds what has a form, and nothing else. -/
def Finds (reader : Reader α) (form : Form α) : Prop :=
  ∀ {input thing rest}, reader input = some (thing, rest) ↔ form input thing rest

/-- What follows a thing of the form is no longer than the whole. -/
def Form.Shortens (form : Form α) : Prop :=
  ∀ {input thing rest}, form input thing rest → rest.length ≤ input.length

theorem length_skipBlanks_le (input : List Char) : (skipBlanks input).length ≤ input.length :=
  (List.dropWhile_suffix isBlank).length_le

theorem length_lt_of_skipBlanks {mark : Char} (hmark : skipBlanks input = mark :: rest) :
    rest.length < input.length := by
  have hle := length_skipBlanks_le input
  rw [hmark, List.length_cons] at hle
  omega

theorem skipBlanks_skipBlanks (input : List Char) :
    skipBlanks (skipBlanks input) = skipBlanks input :=
  List.dropWhile_idempotent isBlank input

namespace Listed

theorem ne_nil (hlisted : Listed form close input things rest) : things ≠ [] := by
  cases hlisted with
  | last => exact List.cons_ne_nil _ _
  | more => exact List.cons_ne_nil _ _

theorem skipBlanks_iff :
    Listed form close (skipBlanks input) things rest ↔ Listed form close input things rest := by
  constructor
  · intro hlisted
    cases hlisted with
    | last hthing hclose => exact .last (skipBlanks_skipBlanks input ▸ hthing) hclose
    | more hthing hcomma hmore =>
        exact .more (skipBlanks_skipBlanks input ▸ hthing) hcomma hmore
  · intro hlisted
    cases hlisted with
    | last hthing hclose => exact .last ((skipBlanks_skipBlanks input).symm ▸ hthing) hclose
    | more hthing hcomma hmore =>
        exact .more ((skipBlanks_skipBlanks input).symm ▸ hthing) hcomma hmore

/-- Each thing is followed by a mark, so there are no more things than characters. -/
theorem length_add_le (hshortens : form.Shortens) (hlisted : Listed form close input things rest) :
    things.length + rest.length ≤ input.length := by
  induction hlisted with
  | last hthing hclose =>
      have hafter := Nat.le_trans (hshortens hthing) (length_skipBlanks_le _)
      have hmark := length_lt_of_skipBlanks hclose
      rw [List.length_singleton]
      omega
  | more hthing hcomma _ ih =>
      have hafter := Nat.le_trans (hshortens hthing) (length_skipBlanks_le _)
      have hmark := length_lt_of_skipBlanks hcomma
      rw [List.length_cons]
      omega

theorem shortens (hshortens : form.Shortens) : (Listed form close).Shortens :=
  fun hlisted => Nat.le_trans (Nat.le_add_left _ _) (hlisted.length_add_le hshortens)

end Listed

/-! ## Readers of lists -/

theorem items_eq_some_iff (hfinds : Finds reader form) (hclose : close ≠ ',') {fuel : Nat}
    {done : List α} :
    items reader close fuel done input = some (things, rest) ↔
      ∃ later, things = done.reverse ++ later ∧ later.length ≤ fuel ∧
        Listed form close input later rest := by
  induction fuel generalizing done input with
  | zero =>
      constructor
      · intro hread
        cases hread
      · rintro ⟨later, -, hlength, hlisted⟩
        exact absurd (List.length_eq_zero_iff.1 (Nat.le_zero.1 hlength)) hlisted.ne_nil
  | succ fuel ih =>
      constructor
      · intro hread
        unfold items at hread
        split at hread
        next => cases hread
        next thing afterThing hthing =>
          rw [hfinds] at hthing
          split at hread
          next => cases hread
          next mark behind hmark =>
            split at hread
            next hcomma =>
              subst hcomma
              obtain ⟨later, rfl, hlength, hlisted⟩ := ih.1 hread
              exact ⟨thing :: later, by simp, Nat.succ_le_succ hlength,
                .more hthing hmark hlisted⟩
            next =>
              split at hread
              next hend =>
                subst hend
                cases hread
                exact ⟨[thing], by simp, by simp, .last hthing hmark⟩
              next => cases hread
      · rintro ⟨later, rfl, hlength, hlisted⟩
        unfold items
        cases hlisted with
        | last hthing hmark => simp [hfinds.2 hthing, hmark, hclose]
        | @more _ _ behind _ thing later hthing hmark hlisted =>
            have hread := (@ih behind (thing :: done)).2
              ⟨later, by simp, by simpa using hlength, hlisted⟩
            simpa [hfinds.2 hthing, hmark] using hread

/-- A bracketed list is empty, or its things stand before the closing mark. -/
theorem bracketed_eq_some_iff (hfinds : Finds reader form) (hshortens : form.Shortens)
    (hclose : close ≠ ',') {fuel : Nat} :
    bracketed fuel reader close input = some (things, rest) ↔
      things = [] ∧ skipBlanks input = close :: rest ∨
        (∀ behind, skipBlanks input ≠ close :: behind) ∧ things.length ≤ fuel ∧
          Listed form close input things rest := by
  have hitems : items reader close fuel [] (skipBlanks input) = some (things, rest) ↔
      things.length ≤ fuel ∧ Listed form close input things rest := by
    simpa [Listed.skipBlanks_iff] using
      @items_eq_some_iff α form reader close (skipBlanks input) rest things hfinds hclose fuel []
  rw [← hitems]
  unfold bracketed
  cases hfront : skipBlanks input with
  | nil =>
      -- a list has fewer things than there are characters before its end
      have hnone : items reader close fuel [] [] ≠ some (things, rest) := by
        intro hread
        obtain ⟨-, hlisted⟩ := hitems.1 (hfront ▸ hread)
        have hlength := (Listed.skipBlanks_iff.2 hlisted).length_add_le hshortens
        rw [hfront, List.length_nil] at hlength
        exact hlisted.ne_nil (List.length_eq_zero_iff.1 (by omega))
      simp [hnone]
  | cons mark behind =>
      by_cases hmark : mark = close
      · simp [hmark, eq_comm]
      · simp [hmark]

theorem whole_eq_some_iff {text : String} {thing : α} :
    whole reader text = some thing ↔
      ∃ rest, reader (skipBlanks text.toList) = some (thing, rest) ∧ skipBlanks rest = [] := by
  unfold whole
  constructor
  · intro hread
    split at hread
    next found rest hfound =>
      split at hread
      next hend =>
        cases hread
        exact ⟨rest, hfound, List.isEmpty_iff.1 hend⟩
      next => cases hread
    next => cases hread
  · rintro ⟨rest, hread, hend⟩
    rw [hread]
    simp [hend]

theorem finds_entry {value : String → Reader α} {form : String → Form α}
    (hfinds : ∀ key, Finds (value key) (form key)) :
    Finds (entry care value) (Keyed care form) := by
  intro input thing rest
  constructor
  · intro hread
    unfold entry at hread
    split at hread
    next input =>
      simp only [Option.bind_eq_bind, Option.bind_eq_some_iff] at hread
      obtain ⟨⟨key, afterKey⟩, hkey, hread⟩ := hread
      dsimp only at hread
      split at hread
      next afterColon hcolon =>
        simp only [Option.bind_eq_some_iff] at hread
        obtain ⟨⟨thing, rest⟩, hthing, hread⟩ := hread
        cases hread
        exact .entry hkey hcolon ((hfinds _).1 hthing)
      next => cases hread
    next => cases hread
  · rintro ⟨hkey, hcolon, hthing⟩
    simp [entry, hkey, hcolon, (hfinds _).2 hthing]

/-! ## What readers leave -/

theorem length_of_stringBody {high : Option Nat} {done input text rest : List Char}
    (hread : stringBody care high done input = some (text, rest)) :
    rest.length ≤ input.length := by
  fun_induction stringBody care high done input
  case case1 => cases hread
  all_goals
    simp only [List.length_cons]
    grind

theorem length_of_digits (input : List Char) : (digits input).2.length ≤ input.length := by
  rw [digits, List.span_eq_takeWhile_dropWhile]
  exact (List.dropWhile_suffix _).length_le

theorem length_of_fractionDigits {places : List Char}
    (hread : fractionDigits input = some (places, rest)) : rest.length ≤ input.length := by
  unfold fractionDigits at hread
  split at hread
  next behind =>
    have hplaces := length_of_digits behind
    simp only [List.length_cons]
    grind
  next => grind

theorem length_of_exponent {power : Option Int} (hread : exponent input = some (power, rest)) :
    rest.length ≤ input.length := by
  have hdigits := length_of_digits
  unfold exponent at hread
  grind

theorem length_of_number {value : JsonNumber} (hread : number care input = some (value, rest)) :
    rest.length ≤ input.length := by
  unfold number at hread
  simp only [Option.bind_eq_bind, Option.bind_eq_some_iff, Option.ite_none_left_eq_some,
    Option.some.injEq, Prod.mk.injEq] at hread
  obtain ⟨-, _, hplaces, _, hpower, -, -, rfl⟩ := hread
  have hafterPower := length_of_exponent hpower
  have hafterPlaces := length_of_fractionDigits hplaces
  refine Nat.le_trans hafterPower (Nat.le_trans hafterPlaces
    (Nat.le_trans (length_of_digits _) ?_))
  split
  · exact Nat.le_succ _
  · exact Nat.le_refl _

theorem length_of_scalar {value : Json} (hread : scalar care input = some (value, rest)) :
    rest.length ≤ input.length := by
  unfold scalar at hread
  split at hread
  case h_4 =>
    obtain ⟨_, hbody, hend⟩ := Option.map_eq_some_iff.1 hread
    cases hend
    exact Nat.le_succ_of_le (length_of_stringBody hbody)
  case h_5 =>
    obtain ⟨_, hnumber, hend⟩ := Option.map_eq_some_iff.1 hread
    cases hend
    exact length_of_number hnumber
  all_goals
    cases hread
    simp only [List.length_cons]
    omega

theorem length_of_bracketed {item : Reader α} {fuel : Nat} (hclose : close ≠ ',')
    (hshortens : Form.Shortens fun input thing rest => item input = some (thing, rest))
    (hread : bracketed fuel item close input = some (things, rest)) :
    rest.length ≤ input.length := by
  rcases (bracketed_eq_some_iff .rfl hshortens hclose).1 hread with ⟨-, hmark⟩ | ⟨-, -, hlisted⟩
  · exact Nat.le_of_lt (length_lt_of_skipBlanks hmark)
  · exact hlisted.shortens hshortens

theorem Keyed.shortens {form : String → Form α} (hshortens : ∀ key, (form key).Shortens) :
    (Keyed care form).Shortens := by
  intro input thing rest hkeyed
  cases hkeyed with
  | entry hkey hcolon hthing =>
      have hafterKey := length_of_stringBody hkey
      have hafterColon := length_lt_of_skipBlanks hcolon
      have hbehind := Nat.le_trans (hshortens _ hthing) (length_skipBlanks_le _)
      rw [List.length_cons]
      omega

/-- What follows a value is no longer than the text it stands in. -/
theorem shortens_value (care : Care) (fuel depth : Nat) :
    Form.Shortens fun input thing rest => value care fuel depth input = some (thing, rest) := by
  induction depth with
  | zero =>
    intro input thing rest hread
    unfold value at hread
    split at hread
    · cases hread
    · cases hread
    · exact length_of_scalar hread
  | succ depth ih =>
    intro input thing rest hread
    unfold value at hread
    split at hread
    · obtain ⟨_, hbody, hend⟩ := Option.map_eq_some_iff.1 hread
      cases hend
      exact Nat.le_succ_of_le (length_of_bracketed (by decide) ih hbody)
    · obtain ⟨_, hbody, hend⟩ := Option.map_eq_some_iff.1 hread
      cases hend
      refine Nat.le_succ_of_le (length_of_bracketed (by decide) ?_ hbody)
      intro input thing rest hentry
      exact Keyed.shortens (fun _ => ih) ((finds_entry fun _ => .rfl).1 hentry)
    · exact length_of_scalar hread

/-- The entries of an object that has some. -/
theorem bracketed_entry_eq_some_iff {value : String → Reader α} {form : String → Form α}
    {entries : List (String × α)} {fuel : Nat} (hfinds : ∀ key, Finds (value key) (form key))
    (hshortens : ∀ key, (form key).Shortens) (hentries : entries ≠ []) :
    bracketed fuel (entry care value) '\x7d' input = some (entries, rest) ↔
      entries.length ≤ fuel ∧ Listed (Keyed care form) '\x7d' input entries rest := by
  rw [bracketed_eq_some_iff (finds_entry hfinds) (Keyed.shortens hshortens) (by decide),
    or_iff_right fun hempty => hentries hempty.1]
  refine and_iff_right_of_imp fun hlisted behind hfront => ?_
  -- an entry begins with a quote, and no list of entries with the closing mark
  have hquoted : ∀ {thing rest}, ¬ Keyed care form ('\x7d' :: behind) thing rest := by
    intro thing rest hkeyed
    cases hkeyed
  cases hlisted.2 with
  | last hthing => exact hquoted (hfront ▸ hthing)
  | more hthing => exact hquoted (hfront ▸ hthing)

end CampusQuery.Json.Reader
