import CampusQuery.Query.Pattern

/-!
# How patterns are written

A text writes a pattern when no asterisk stands inside it. Its asterisks at the
ends say which question is asked of the text between them.
-/

namespace CampusQuery.Query.Pattern

/-- Which texts write a pattern: asterisks stand at the ends only. -/
inductive WrittenBy : Pattern → String → Prop where
  | one : WrittenBy .any "*"
  | two : WrittenBy .any "**"
  | exact {text : String} : wildcard ∉ text.toList → WrittenBy (.exact text) text
  | startsWith {text : String} : text ≠ "" → wildcard ∉ text.toList →
      WrittenBy (.startsWith text) (text ++ "*")
  | endsWith {text : String} : text ≠ "" → wildcard ∉ text.toList →
      WrittenBy (.endsWith text) ("*" ++ text)
  | contains {text : String} : text ≠ "" → wildcard ∉ text.toList →
      WrittenBy (.contains text) ("*" ++ text ++ "*")

/-! ## Taking asterisks off -/

/-- An asterisk or nothing. -/
def stars (present : Bool) : List Char := if present then [wildcard] else []

theorem eq_of_splitLeading {text rest : List Char} {found : Bool}
    (hsplit : splitLeading text = (found, rest)) : text = stars found ++ rest := by
  unfold splitLeading at hsplit
  split at hsplit
  · cases hsplit
    rfl
  · split at hsplit
    next hstar =>
      cases hsplit
      rw [hstar]
      rfl
    next =>
      cases hsplit
      rfl

theorem eq_of_splitTrailing {text rest : List Char} {found : Bool}
    (hsplit : splitTrailing text = (found, rest)) : text = rest ++ stars found := by
  have hreversed : splitLeading text.reverse = (found, rest.reverse) := by
    simp only [splitTrailing, Prod.mk.injEq] at hsplit
    rw [← hsplit.1, ← hsplit.2, List.reverse_reverse]
  have htext := congrArg List.reverse (eq_of_splitLeading hreversed)
  cases found <;> simpa [stars] using htext

theorem splitLeading_stars (present : Bool) {text : List Char} (htext : wildcard ∉ text)
    (hfilled : text ≠ []) (rest : List Char) :
    splitLeading (stars present ++ text ++ rest) = (present, text ++ rest) := by
  cases present with
  | true => simp [stars, splitLeading]
  | false =>
      cases text with
      | nil => exact absurd rfl hfilled
      | cons c text =>
          have hc : c ≠ wildcard := fun heq => htext (heq ▸ List.mem_cons_self)
          simp [stars, splitLeading, hc]

theorem splitTrailing_stars (present : Bool) {text : List Char} (htext : wildcard ∉ text)
    (hfilled : text ≠ []) : splitTrailing (text ++ stars present) = (present, text) := by
  have hreversed : splitLeading (stars present ++ text.reverse ++ []) =
      (present, text.reverse ++ []) :=
    splitLeading_stars present (by simpa using htext) (by simpa using hfilled) []
  unfold splitTrailing
  cases present <;> simp_all [stars]

/-- The question that asterisks at the ends ask of a text. -/
def asked (text : String) : Bool → Bool → Pattern
  | false, false => .exact text
  | true, false => .endsWith text
  | false, true => .startsWith text
  | true, true => .contains text

/-- A text without asterisks, with or without one at each end, is read part by part. -/
theorem parse?_stars (leading trailing : Bool) {raw text : String}
    (hraw : raw.toList = stars leading ++ text.toList ++ stars trailing)
    (htext : wildcard ∉ text.toList) (hfilled : text ≠ "") :
    parse? raw = some (asked text leading trailing) := by
  have hfilled' : text.toList ≠ [] := by simpa using hfilled
  unfold parse?
  rw [hraw, splitLeading_stars leading htext hfilled']
  dsimp only
  rw [splitTrailing_stars trailing htext hfilled']
  cases leading <;> cases trailing <;> simp [htext, hfilled, asked]

/-! ## Reading what is written -/

theorem parse?_of_writtenBy {pattern : Pattern} {raw : String} (hwritten : pattern.WrittenBy raw) :
    parse? raw = some pattern := by
  cases hwritten with
  | one => decide
  | two => decide
  | exact htext =>
      by_cases hfilled : raw = ""
      · subst hfilled
        decide
      · exact parse?_stars false false (by simp [stars]) htext hfilled
  | startsWith hfilled htext =>
      exact parse?_stars false true (by simp [stars, wildcard, String.toList_append]) htext hfilled
  | endsWith hfilled htext =>
      exact parse?_stars true false (by simp [stars, wildcard, String.toList_append]) htext hfilled
  | contains hfilled htext =>
      exact parse?_stars true true (by simp [stars, wildcard, String.toList_append]) htext hfilled

theorem writtenBy_of_parse? {pattern : Pattern} {raw : String}
    (hparse : parse? raw = some pattern) : pattern.WrittenBy raw := by
  unfold parse? at hparse
  rcases hleading : splitLeading raw.toList with ⟨leading, rest⟩
  rcases htrailing : splitTrailing rest with ⟨trailing, inner⟩
  have hraw := eq_of_splitLeading hleading
  rw [eq_of_splitTrailing htrailing] at hraw
  simp only [hleading, htrailing] at hparse
  split at hparse
  · cases hparse
  next hinner =>
    have htext : wildcard ∉ (String.ofList inner).toList := by simpa using hinner
    have hstar : "*".toList = [wildcard] := by decide
    have hstars : "**".toList = [wildcard, wildcard] := by decide
    split at hparse
    next hempty =>
      cases hparse
      simp only [Bool.and_eq_true, List.isEmpty_iff] at hempty
      obtain ⟨rfl, hany⟩ := hempty
      have hspelled : raw = "*" ∨ raw = "**" := by
        rw [← String.toList_inj, ← String.toList_inj, hraw, hstar, hstars]
        cases leading <;> cases trailing <;> simp_all [stars]
      rcases hspelled with rfl | rfl
      · exact .one
      · exact .two
    next hfilled =>
      have hsome : (leading || trailing) = true → String.ofList inner ≠ "" := by
        intro hany hnone
        exact hfilled (by simpa [hany, ← String.toList_inj] using hnone)
      have hspelled : ∀ text : String,
          text.toList = stars leading ++ inner ++ stars trailing → raw = text := by
        intro text htoList
        exact String.toList_injective (by rw [hraw, htoList, List.append_assoc])
      cases leading <;> cases trailing <;> cases hparse
      · rw [hspelled (String.ofList inner) (by simp [stars])]
        exact .exact htext
      · rw [hspelled (String.ofList inner ++ "*") (by simp [stars, hstar])]
        exact .startsWith (hsome rfl) htext
      · rw [hspelled ("*" ++ String.ofList inner) (by simp [stars, hstar])]
        exact .endsWith (hsome rfl) htext
      · rw [hspelled ("*" ++ String.ofList inner ++ "*") (by simp [stars, hstar])]
        exact .contains (hsome rfl) htext

/-- A text is read as a pattern exactly when it writes it. -/
theorem parse?_eq_some_iff {pattern : Pattern} {raw : String} :
    parse? raw = some pattern ↔ pattern.WrittenBy raw :=
  ⟨writtenBy_of_parse?, parse?_of_writtenBy⟩

end CampusQuery.Query.Pattern
