import CampusQuery.Record.Decoding
import CampusQuery.Proofs.Numeric.Closest
import CampusQuery.Proofs.Query.Checks

/-!
# What is read from the JSON of a record

A record that is read has, in each field of its kind, the value that its JSON
gives for this field: by the field's name in an object, by its place in the
layout in an array.
-/

namespace CampusQuery

open Numeric

/-- The JSON of a record has this JSON value for a field. -/
inductive Field.GivenIn (f : Field) : Json → Json → Prop where
  | named {entries : List (String × Json)} {given : Json}
      (hentry : Json.lookup? f.bareName entries = some given) : f.GivenIn (.object entries) given
  | placed {items : List Json} {given : Json} {place : Nat}
      (hplace : f.kind.layout[place]? = some f) (hitem : items[place]? = some given) :
      f.GivenIn (.array items) given

/-- A value is what a JSON value says: its text, or the number nearest to its number. -/
inductive Value.GivenBy : Json → Value → Prop where
  | text (text : String) : GivenBy (.string text) (.text text)
  | number {n : JsonNumber} (hnearest : n.toBinary64.IsNearest n.valueUnits) :
      GivenBy (.number n) (.number n.toBinary64)

namespace Record

variable {kind : Kind} {f : Field}

/-- A value is accepted for a field if it is a text or a number as the field is. -/
theorem decodeValue_eq_ok_iff {given : Json} {value : Value} :
    decodeValue f given = .ok value ↔
      (f.fieldType = .text ∧ ∃ text, given = .string text ∧ value = .text text) ∨
      (f.fieldType = .numeric ∧ ∃ n, given = .number n ∧ value = .number n.toBinary64) := by
  unfold decodeValue
  cases f.fieldType <;> cases given <;> simp [eq_comm]

theorem givenBy_of_decodeValue {given : Json} {value : Value}
    (hdecode : decodeValue f given = .ok value)
    (hfinite : ∀ x, value = .number x → x.isFinite = true) : value.GivenBy given := by
  rcases decodeValue_eq_ok_iff.1 hdecode with ⟨-, text, rfl, rfl⟩ | ⟨-, n, rfl, rfl⟩
  · exact .text text
  · exact .number (JsonNumber.isNearest_toBinary64 (hfinite _ rfl))

/-- Each field is read from the place it is written to. -/
theorem get?_ofFields {text : Field → String} {number : Field → Binary64} (hkind : f.kind = kind) :
    (ofFields kind text number).get? f =
      some (match f.fieldType with
        | .text => .text (text f)
        | .numeric => .number (number f)) := by
  subst hkind
  rcases f with f | f
  · cases f <;> rfl
  · cases f <;> rfl

theorem get?_ofValues {values : List (Field × Value)} {given : Json} {value : Value}
    (hkind : f.kind = kind) (hvalue : valueOf? f values = some value)
    (hdecode : decodeValue f given = .ok value) : (ofValues kind values).get? f = some value := by
  rw [ofValues, get?_ofFields hkind, hvalue]
  rcases decodeValue_eq_ok_iff.1 hdecode with ⟨htype, text, -, rfl⟩ | ⟨htype, n, -, rfl⟩ <;>
    rw [htype] <;> rfl

theorem valueOf?_cons (f g : Field) (value : Value) (values : List (Field × Value)) :
    valueOf? f ((g, value) :: values) = if g = f then some value else valueOf? f values := by
  by_cases hsame : g = f <;> simp [valueOf?, hsame]

/-- What is found for a field in an object stands there under the field's name. -/
theorem exists_entry_of_decodeEntries {entries : List (String × Json)}
    {values : List (Field × Value)} {value : Value} (hkind : f.kind = kind)
    (hdecode : decodeEntries kind entries = .ok values) (hvalue : valueOf? f values = some value) :
    ∃ given, Json.lookup? f.bareName entries = some given ∧ decodeValue f given = .ok value := by
  induction entries generalizing values with
  | nil =>
      cases hdecode
      exact nomatch hvalue
  | cons entry rest ih =>
      obtain ⟨key, given⟩ := entry
      rw [decodeEntries] at hdecode
      by_cases hname : key = f.bareName
      · rw [Kind.field?_eq_some_iff.2 ⟨hkind, hname.symm⟩] at hdecode
        obtain ⟨found, hfound, hrest⟩ := Query.Answer.bind_eq_ok_iff.1 hdecode
        obtain ⟨others, -, hend⟩ := Query.Answer.bind_eq_ok_iff.1 hrest
        cases hend
        rw [valueOf?_cons, if_pos rfl] at hvalue
        cases hvalue
        exact ⟨given, if_pos hname, hfound⟩
      · rw [Json.lookup?, if_neg hname]
        split at hdecode
        next => exact ih hdecode hvalue
        next g hfield =>
          obtain ⟨found, -, hrest⟩ := Query.Answer.bind_eq_ok_iff.1 hdecode
          obtain ⟨others, hothers, hend⟩ := Query.Answer.bind_eq_ok_iff.1 hrest
          cases hend
          have hother : g ≠ f := by
            rintro rfl
            exact hname (Kind.field?_eq_some_iff.1 hfield).2.symm
          rw [valueOf?_cons, if_neg hother] at hvalue
          exact ih hothers hvalue

/-- What is found for a field in an array stands there in the field's place. -/
theorem exists_item_of_decodeItems {position : Nat} {fields : List Field} {items : List Json}
    {values : List (Field × Value)} (hmem : f ∈ fields)
    (hdecode : decodeItems kind position fields items = .ok values) :
    ∃ (place : Nat) (given : Json) (value : Value),
      fields[place]? = some f ∧ items[place]? = some given ∧
      decodeValue f given = .ok value ∧ valueOf? f values = some value := by
  induction fields generalizing position items values with
  | nil => exact nomatch hmem
  | cons g fields ih =>
      cases items with
      | nil => exact nomatch hdecode
      | cons given items =>
          obtain ⟨found, hfound, hrest⟩ := Query.Answer.bind_eq_ok_iff.1 hdecode
          obtain ⟨others, hothers, hend⟩ := Query.Answer.bind_eq_ok_iff.1 hrest
          cases hend
          by_cases hsame : g = f
          · subst hsame
            exact ⟨0, given, found, rfl, rfl, hfound, by rw [valueOf?_cons, if_pos rfl]⟩
          · obtain ⟨place, later, value, hplace, hitem, hvalue, hof⟩ :=
              ih ((List.mem_cons.1 hmem).resolve_left (Ne.symm hsame)) hothers
            exact ⟨place + 1, later, value, hplace, hitem, hvalue,
              by rw [valueOf?_cons, if_neg hsame, hof]⟩

/-- A record that is read has in each field what its JSON gives for it. -/
theorem exists_given_of_decode {item : Json} {record : Record} (hkind : f.kind = kind)
    (hdecode : decode kind item = .ok record) :
    ∃ given value, f.GivenIn item given ∧ decodeValue f given = .ok value ∧
      record.get? f = some value := by
  have hlayout : f ∈ kind.layout := Kind.mem_layout_iff.2 hkind
  unfold decode at hdecode
  split at hdecode
  next entries =>
    obtain ⟨values, hvalues, hcomplete⟩ := Query.Answer.bind_eq_ok_iff.1 hdecode
    split at hcomplete
    · exact nomatch hcomplete
    next hnone =>
      cases hcomplete
      -- no field was missed, so there is a value for this one
      have hpresent := List.find?_eq_none.1 hnone f hlayout
      rw [Bool.not_eq_true, Option.isNone_eq_false_iff] at hpresent
      obtain ⟨value, hvalue⟩ := Option.isSome_iff_exists.1 hpresent
      obtain ⟨given, hentry, hgiven⟩ := exists_entry_of_decodeEntries hkind hvalues hvalue
      exact ⟨given, value, .named hentry, hgiven, get?_ofValues hkind hvalue hgiven⟩
  next items =>
    obtain ⟨values, hvalues, hend⟩ := Query.Answer.bind_eq_ok_iff.1 hdecode
    cases hend
    obtain ⟨place, given, value, hplace, hitem, hgiven, hvalue⟩ :=
      exists_item_of_decodeItems hlayout hvalues
    rw [← hkind] at hplace
    exact ⟨given, value, .placed hplace hitem, hgiven, get?_ofValues hkind hvalue hgiven⟩
  next => exact nomatch hdecode

end Record

end CampusQuery
