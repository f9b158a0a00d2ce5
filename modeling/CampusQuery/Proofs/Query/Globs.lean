import CampusQuery.Proofs.Query.Patterns
import Mathlib.Computability.Language

/-!
# What patterns stand for

A pattern as it is written stands for a language: an asterisk for all texts, any
other character for itself, one after the other. A text is refused as a pattern
exactly if an asterisk stands inside it, and what is read accepts exactly the
texts of the language.
-/

namespace CampusQuery.Query.Pattern

/-- The texts that a character of a pattern stands for. -/
def symbol (c : Char) : Language Char := if c = wildcard then ⊤ else {[c]}

/-- The texts that a pattern stands for as it is written. -/
def language (raw : String) : Language Char := (raw.toList.map symbol).prod

/-! ## Where asterisks stand -/

theorem mem_splitLeading_iff {text : List Char} :
    wildcard ∈ (splitLeading text).2 ↔ wildcard ∈ text.tail := by
  cases text with
  | nil => rfl
  | cons c rest =>
      rw [splitLeading]
      split
      next => rfl
      next hc => simp [Ne.symm hc]

theorem mem_dropLast_splitLeading_iff {text : List Char} :
    wildcard ∈ (splitLeading text).2.dropLast ↔ wildcard ∈ text.tail.dropLast := by
  cases text with
  | nil => rfl
  | cons c rest =>
      rw [splitLeading]
      split
      next => rfl
      next hc =>
        cases rest with
        | nil => simp
        | cons d rest => simp [Ne.symm hc]

theorem mem_splitTrailing_iff {text : List Char} :
    wildcard ∈ (splitTrailing text).2 ↔ wildcard ∈ text.dropLast := by
  have hreversed := @mem_splitLeading_iff text.reverse
  rw [List.tail_reverse, List.mem_reverse] at hreversed
  exact List.mem_reverse.trans hreversed

/-- A text is refused as a pattern if an asterisk is left between its first and last character. -/
theorem parse?_eq_none_iff {raw : String} :
    parse? raw = none ↔ wildcard ∈ raw.toList.tail.dropLast := by
  rw [← mem_dropLast_splitLeading_iff, ← mem_splitTrailing_iff]
  unfold parse?
  dsimp only
  split
  next hinner => exact iff_of_true rfl (by simpa using hinner)
  next hinner =>
    refine iff_of_false ?_ (by simpa using hinner)
    split
    · exact nofun
    · split <;> exact nofun

/-- Between the first and the last item are those at the other places. -/
theorem mem_inside_iff {α : Type} {item : α} {items : List α} :
    item ∈ items.tail.dropLast ↔
      ∃ place, items[place]? = some item ∧ place ≠ 0 ∧ place + 1 ≠ items.length := by
  rw [List.mem_iff_getElem?]
  simp only [List.getElem?_dropLast, List.getElem?_tail, List.length_tail]
  constructor
  · rintro ⟨place, hplace⟩
    split at hplace
    next hlt => exact ⟨place + 1, hplace, by omega, by omega⟩
    next => exact nomatch hplace
  · rintro ⟨place, hplace, hfirst, hlast⟩
    have hlt := (List.getElem?_eq_some_iff.1 hplace).1
    refine ⟨place - 1, ?_⟩
    rw [if_pos (by omega), Nat.sub_add_cancel (Nat.pos_of_ne_zero hfirst), hplace]

/-! ## Languages of patterns -/

theorem mem_top (value : List Char) : value ∈ (⊤ : Language Char) := trivial

theorem mem_singleton_iff {text value : List Char} :
    value ∈ ({text} : Language Char) ↔ value = text := Iff.rfl

theorem mem_top_mul_iff {l : Language Char} {value : List Char} :
    value ∈ ⊤ * l ↔ ∃ text ∈ l, text <:+ value := by
  rw [Language.mem_mul]
  constructor
  · rintro ⟨before, -, text, htext, rfl⟩
    exact ⟨text, htext, List.suffix_append before text⟩
  · rintro ⟨text, htext, before, rfl⟩
    exact ⟨before, mem_top before, text, htext, rfl⟩

theorem mem_mul_top_iff {l : Language Char} {value : List Char} :
    value ∈ l * ⊤ ↔ ∃ text ∈ l, text <+: value := by
  rw [Language.mem_mul]
  constructor
  · rintro ⟨text, htext, after, -, rfl⟩
    exact ⟨text, htext, List.prefix_append text after⟩
  · rintro ⟨text, htext, after, rfl⟩
    exact ⟨text, htext, after, mem_top after, rfl⟩

/-- Characters other than asterisks stand for themselves only. -/
theorem prod_symbol {text : List Char} (htext : wildcard ∉ text) :
    (text.map symbol).prod = {text} := by
  induction text with
  | nil => rfl
  | cons c rest ih =>
      rw [List.mem_cons, not_or] at htext
      rw [List.map_cons, List.prod_cons, ih htext.2, symbol, if_neg (Ne.symm htext.1)]
      ext value
      simp [Language.mem_mul, mem_singleton_iff, eq_comm]

/-- The texts that may stand where an asterisk is or is not. -/
def around (present : Bool) : Language Char := if present then ⊤ else 1

theorem prod_stars (present : Bool) : ((stars present).map symbol).prod = around present := by
  cases present <;> simp [stars, symbol, around]

theorem language_stars {leading trailing : Bool} {raw : String} {text : List Char}
    (hraw : raw.toList = stars leading ++ text ++ stars trailing) (htext : wildcard ∉ text) :
    language raw = around leading * {text} * around trailing := by
  rw [language, hraw, List.map_append, List.map_append, List.prod_append, List.prod_append,
    prod_stars, prod_stars, prod_symbol htext]

/-! ## Accepting -/

theorem occursIn_iff {text value : List Char} : occursIn text value = true ↔ text <:+: value := by
  induction value with
  | nil => simp [occursIn]
  | cons c rest ih =>
      rw [occursIn, Bool.or_eq_true, ih, List.isPrefixOf_iff_prefix, List.infix_cons_iff]

/-- A question about a text is answered by the texts that have the text between its asterisks. -/
theorem accepts_asked_iff (leading trailing : Bool) {text value : String} :
    (asked text leading trailing).accepts value = true ↔
      value.toList ∈ around leading * {text.toList} * around trailing := by
  cases leading <;> cases trailing <;>
    simp only [around, Bool.false_eq_true, if_false, if_true, one_mul, mul_one, asked, accepts]
  · rw [decide_eq_true_iff, mem_singleton_iff, String.toList_inj]
  · rw [List.isPrefixOf_iff_prefix, mem_mul_top_iff]
    simp only [mem_singleton_iff, exists_eq_left]
  · rw [List.isSuffixOf_iff_suffix, mem_top_mul_iff]
    simp only [mem_singleton_iff, exists_eq_left]
  · rw [occursIn_iff, mem_mul_top_iff, List.infix_iff_suffix_prefix]
    simp only [mem_top_mul_iff, mem_singleton_iff, exists_eq_left]

/-- A pattern that is written asks its question of the text between the asterisks. -/
theorem exists_asked_of_writtenBy {pattern : Pattern} {raw : String}
    (hwritten : pattern.WrittenBy raw) :
    ∃ leading trailing text,
      raw.toList = stars leading ++ String.toList text ++ stars trailing ∧
        wildcard ∉ text.toList ∧
          ∀ value, pattern.accepts value = (asked text leading trailing).accepts value := by
  cases hwritten with
  | one => exact ⟨true, false, "", rfl, by decide, fun value => rfl⟩
  | two =>
      refine ⟨true, true, "", rfl, by decide, fun value => ?_⟩
      have hempty : occursIn "".toList value.toList = true := occursIn_iff.2 List.nil_infix
      exact hempty.symm
  | exact htext => exact ⟨false, false, raw, by simp [stars], htext, fun _ => rfl⟩
  | @startsWith text _ htext =>
      exact ⟨false, true, text, by simp [stars, wildcard, String.toList_append], htext,
        fun _ => rfl⟩
  | @endsWith text _ htext =>
      exact ⟨true, false, text, by simp [stars, wildcard, String.toList_append], htext,
        fun _ => rfl⟩
  | @contains text _ htext =>
      exact ⟨true, true, text, by simp [stars, wildcard, String.toList_append], htext,
        fun _ => rfl⟩

/-- A text is refused as a pattern exactly if it has an asterisk at another place than its first
and its last. What is read accepts exactly the texts that the pattern stands for. -/
theorem patterns_are_globs (raw : String) :
    (parse? raw = none ↔ ∃ place, raw.toList[place]? = some wildcard ∧ place ≠ 0 ∧
      place + 1 ≠ raw.toList.length) ∧
    ∀ pattern, parse? raw = some pattern → ∀ value : String,
      pattern.accepts value = true ↔ value.toList ∈ language raw := by
  constructor
  · rw [parse?_eq_none_iff, mem_inside_iff]
  · intro pattern hparse value
    obtain ⟨leading, trailing, text, hraw, htext, haccepts⟩ :=
      exists_asked_of_writtenBy (writtenBy_of_parse? hparse)
    rw [haccepts, accepts_asked_iff, language_stars hraw htext]

/-- An asterisk stands for any text in a pattern, and for itself in the text. -/
theorem text_inside_is_found :
    parse? "*ales*" = some (.contains "ales") ∧
      "kiczales, gregor".toList ∈ language "*ales*" ∧ "al*es".toList ∉ language "*ales*" := by
  have hparse : parse? "*ales*" = some (.contains "ales") := by decide
  have haccepts := (patterns_are_globs "*ales*").2 _ hparse
  exact ⟨hparse, (haccepts _).1 (by decide), fun hmem => absurd ((haccepts _).2 hmem) (by decide)⟩

end CampusQuery.Query.Pattern
