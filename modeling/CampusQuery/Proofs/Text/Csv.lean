import CampusQuery.Text.Csv
import Mathlib.Data.List.Basic

/-!
# Reading comma-separated records back

A reader that goes through a text once. It refuses a quote inside a bare field, anything but a
separator behind a closing quote and a carriage return alone, so a text that it reads has the form
of comma-separated records throughout. Whether a line of nothing is a record of one empty field or
none at all is left open. Records that are written are read back as they were either way.
-/

namespace CampusQuery.Text.Csv

/-- Where a reader is: at the start of a line or of a later field, in a bare or a quoted field,
behind a quote in a quoted field, or behind a carriage return. -/
inductive Place where
  | line
  | field
  | bare
  | quoted
  | closed
  | returned (blank : Bool)
deriving DecidableEq, Repr

/-- What is read: whole records, the fields of the next one, and the text of its next field. -/
structure Reading where
  records : List (List (List Char))
  fields : List (List Char)
  text : List Char
  place : Place
deriving DecidableEq, Repr

namespace Reading

def start : Reading := ⟨[], [], [], .line⟩

def take (reading : Reading) (place : Place) (c : Char) : Reading :=
  { reading with text := reading.text ++ [c], place := place }

def endField (reading : Reading) : Reading :=
  ⟨reading.records, reading.fields ++ [reading.text], [], .field⟩

def endRecord (reading : Reading) : Reading :=
  ⟨reading.records ++ [reading.endField.fields], [], [], .line⟩

/-- End a line, which may have nothing on it. -/
def endLine (keepsBlank blank : Bool) (reading : Reading) : Reading :=
  if blank && !keepsBlank then { reading with place := .line } else reading.endRecord

/-- The step over a character that stands behind a field. -/
def separate? (keepsBlank : Bool) (reading : Reading) (c : Char) : Option Reading :=
  let blank := reading.place == .line
  if c = ',' then some reading.endField
  else if c = '\n' then some (reading.endLine keepsBlank blank)
  else if c = '\r' then some { reading with place := .returned blank }
  else none

/-- The step over a character, if it can stand where the reader is. -/
def step? (keepsBlank : Bool) (reading : Reading) (c : Char) : Option Reading :=
  match reading.place with
  | .line | .field =>
      if c = '"' then some { reading with place := .quoted }
      else some ((reading.separate? keepsBlank c).getD (reading.take .bare c))
  | .bare =>
      if c = '"' then none
      else some ((reading.separate? keepsBlank c).getD (reading.take .bare c))
  | .quoted =>
      if c = '"' then some { reading with place := .closed } else some (reading.take .quoted c)
  | .closed =>
      if c = '"' then some (reading.take .quoted c) else reading.separate? keepsBlank c
  | .returned blank => if c = '\n' then some (reading.endLine keepsBlank blank) else none

/-- The records at the end of a text. The last one needs no line break. -/
def finish? (reading : Reading) : Option (List (List (List Char))) :=
  match reading.place with
  | .line => some reading.records
  | .quoted | .returned _ => none
  | _ => some reading.endRecord.records

end Reading

/-- Read comma-separated records. -/
def read? (keepsBlank : Bool) (text : String) : Option (List (List String)) :=
  ((text.toList.foldlM (Reading.step? keepsBlank) .start).bind Reading.finish?).map
    fun records => records.map fun fields => fields.map String.ofList

/-- A text takes a reader from one state to another. -/
def Reads (keepsBlank : Bool) (text : List Char) (before after : Reading) : Prop :=
  text.foldlM (Reading.step? keepsBlank) before = some after

variable {keepsBlank : Bool} {records : List (List (List Char))} {fields : List (List Char)}
  {text : List Char} {place : Place}

namespace Reads

variable {before middle after : Reading}

theorem nil : Reads keepsBlank [] before before := rfl

theorem cons {c : Char} (hstep : before.step? keepsBlank c = some middle)
    (hrest : Reads keepsBlank text middle after) : Reads keepsBlank (c :: text) before after := by
  rw [Reads, List.foldlM_cons, hstep]
  exact hrest

theorem append {first second : List Char} (hfirst : Reads keepsBlank first before middle)
    (hsecond : Reads keepsBlank second middle after) :
    Reads keepsBlank (first ++ second) before after := by
  rw [Reads, List.foldlM_append, hfirst]
  exact hsecond

end Reads

/-! ## Fields -/

/-- A character that is not special goes on or begins a bare field. -/
theorem step?_plain {before : List Char} {c : Char} (hplain : isSpecial c = false)
    (hplace : place = .line ∨ place = .field ∨ place = .bare) :
    Reading.step? keepsBlank ⟨records, fields, before, place⟩ c =
      some ⟨records, fields, before ++ [c], .bare⟩ := by
  have hspecial : ¬ c = '"' ∧ ¬ c = ',' ∧ ¬ c = '\n' ∧ ¬ c = '\r' := by
    simpa [isSpecial, and_assoc] using hplain
  obtain ⟨hquote, hcomma, hfeed, hreturn⟩ := hspecial
  rcases hplace with rfl | rfl | rfl <;>
    simp [Reading.step?, Reading.separate?, Reading.take, hquote, hcomma, hfeed, hreturn]

theorem reads_bare {before : List Char} (hplain : text.any isSpecial = false) :
    Reads keepsBlank text ⟨records, fields, before, .bare⟩
      ⟨records, fields, before ++ text, .bare⟩ := by
  induction text generalizing before with
  | nil =>
      rw [List.append_nil]
      exact .nil
  | cons c rest ih =>
      rw [List.any_cons, Bool.or_eq_false_iff] at hplain
      rw [List.append_cons]
      exact .cons (step?_plain hplain.1 (.inr (.inr rfl))) (ih hplain.2)

theorem reads_doubleQuotes {before : List Char} :
    Reads keepsBlank (doubleQuotes text) ⟨records, fields, before, .quoted⟩
      ⟨records, fields, before ++ text, .quoted⟩ := by
  induction text generalizing before with
  | nil =>
      rw [List.append_nil]
      exact .nil
  | cons c rest ih =>
      rw [doubleQuotes, List.append_cons]
      split
      next hquote =>
        -- the first quote closes the field and the second one opens it again
        subst hquote
        exact .cons rfl (.cons rfl ih)
      next hother => exact .cons (by simp [Reading.step?, Reading.take, hother]) ih

/-- Where a reader may be behind a field that it met at some place. -/
inductive Behind (place : Place) (text : List Char) : Place → Prop
  | bare : Behind place text .bare
  | closed : Behind place text .closed
  | empty : text = [] → Behind place text place

theorem reads_field (hplace : place = .line ∨ place = .field) :
    ∃ behind, Behind place text behind ∧
      Reads keepsBlank (field text) ⟨records, fields, [], place⟩
        ⟨records, fields, text, behind⟩ := by
  rw [field]
  split
  · refine ⟨.closed, .closed, ?_⟩
    have hopen : Reading.step? keepsBlank ⟨records, fields, [], place⟩ '"' =
        some ⟨records, fields, [], .quoted⟩ := by
      rcases hplace with rfl | rfl <;> rfl
    exact .append (.cons hopen reads_doubleQuotes) (.cons rfl .nil)
  next hplain =>
    rw [Bool.not_eq_true] at hplain
    cases text with
    | nil => exact ⟨place, .empty rfl, .nil⟩
    | cons c rest =>
        rw [List.any_cons, Bool.or_eq_false_iff] at hplain
        have hfirst : place = .line ∨ place = .field ∨ place = .bare := by tauto
        exact ⟨.bare, .bare, .cons (step?_plain hplain.1 hfirst) (reads_bare hplain.2)⟩

theorem reads_field_comma (hplace : place = .line ∨ place = .field) {rest : List Char}
    {after : Reading}
    (hrest : Reads keepsBlank rest ⟨records, fields ++ [text], [], .field⟩ after) :
    Reads keepsBlank (field text ++ ',' :: rest) ⟨records, fields, [], place⟩ after := by
  obtain ⟨behind, hbehind, hfield⟩ := @reads_field keepsBlank records fields text place hplace
  refine hfield.append (.cons ?_ hrest)
  cases hbehind with
  | bare => rfl
  | closed => rfl
  | empty => rcases hplace with rfl | rfl <;> rfl

/-- A line break ends the record, unless nothing at all is on its line. -/
theorem reads_field_end (hplace : place = .field ∨ place = .line ∧ text ≠ []) :
    Reads keepsBlank (field text ++ ['\n']) ⟨records, fields, [], place⟩
      ⟨records ++ [fields ++ [text]], [], [], .line⟩ := by
  obtain ⟨behind, hbehind, hfield⟩ :=
    @reads_field keepsBlank records fields text place (by tauto)
  refine hfield.append (.cons ?_ .nil)
  cases hbehind with
  | bare => rfl
  | closed => rfl
  | empty hempty =>
      rcases hplace with rfl | ⟨-, hfilled⟩
      · rfl
      · exact absurd hempty hfilled

/-! ## Records -/

theorem reads_joinFields {others : List (List Char)} (hfilled : others ≠ [])
    (hplace : place = .field ∨ place = .line ∧ others ≠ [[]]) :
    Reads keepsBlank (joinFields others ++ ['\n']) ⟨records, fields, [], place⟩
      ⟨records ++ [fields ++ others], [], [], .line⟩ := by
  induction others generalizing fields place with
  | nil => exact absurd rfl hfilled
  | cons first rest ih =>
      cases rest with
      | nil =>
          refine reads_field_end (hplace.imp_right fun hline => ⟨hline.1, ?_⟩)
          rintro rfl
          exact hline.2 rfl
      | cons second rest =>
          have hrest := @ih (fields ++ [first]) .field (List.cons_ne_nil _ _) (.inl rfl)
          rw [joinFields, List.append_assoc, List.cons_append]
          · rw [List.append_assoc] at hrest
            exact reads_field_comma (by tauto) hrest
          · exact List.cons_ne_nil _ _

theorem reads_record {written : List (List Char)} (hfilled : written ≠ []) :
    Reads keepsBlank (record written) ⟨records, [], [], .line⟩
      ⟨records ++ [written], [], [], .line⟩ := by
  unfold record
  split
  · exact .cons rfl (.cons rfl (.cons rfl .nil))
  next hother => exact reads_joinFields hfilled (.inr ⟨rfl, hother⟩)

theorem reads_records {written : List (List (List Char))}
    (hfilled : ∀ fields ∈ written, fields ≠ []) :
    Reads keepsBlank (written.flatMap record) ⟨records, [], [], .line⟩
      ⟨records ++ written, [], [], .line⟩ := by
  induction written generalizing records with
  | nil =>
      rw [List.append_nil]
      exact .nil
  | cons first rest ih =>
      rw [List.flatMap_cons, List.append_cons]
      exact (reads_record (hfilled first List.mem_cons_self)).append
        (ih fun fields hfields => hfilled fields (List.mem_cons_of_mem _ hfields))

/-- Records of at least one field are read back as they were written. -/
theorem read?_document {keepsBlank : Bool} {written : List (List String)}
    (hfilled : ∀ fields ∈ written, fields ≠ []) :
    read? keepsBlank (document written) = some written := by
  have hreads := @reads_records keepsBlank [] (written.map fun fields => fields.map String.toList)
    (by simpa using hfilled)
  rw [List.flatMap_map] at hreads
  rw [read?, document, String.toList_ofList, Reading.start, hreads]
  simp [Reading.finish?]

example : read? false "\"a, \"\"b\"\"\",c\n,\"d\r\n\"\n" =
    some [["a, \"b\"", "c"], ["", "d\r\n"]] := by decide

/-- Records that have equally many fields are written. -/
theorem write?_of_length {written : List (List String)} {n : Nat}
    (hlength : ∀ fields ∈ written, fields.length = n) :
    write? written = some (document written) := by
  refine if_pos ?_
  cases written with
  | nil => rfl
  | cons first rest =>
      refine List.all_eq_true.2 fun fields hfields => ?_
      rw [beq_iff_eq, hlength fields (List.mem_cons_of_mem _ hfields),
        hlength first List.mem_cons_self]

end CampusQuery.Text.Csv
