import CampusQuery.Schema
import CampusQuery.Numeric.Notation

/-!
# Records

A record has one value per field of its kind, so a field of the other kind is
the only thing that cannot be read from it.
-/

namespace CampusQuery

open Numeric

/-- A field's value: a text or a number. -/
inductive Value where
  | text (value : String)
  | number (value : Binary64)
deriving DecidableEq, Repr

namespace Value

/-- The text, if it is one. -/
def text? : Value → Option String
  | .text value => some value
  | .number _ => none

/-- The number, if it is one. -/
def number? : Value → Option Binary64
  | .number value => some value
  | .text _ => none

def shown : Value → String
  | .text value => value
  | .number value => value.plain

end Value

/-- A course section. -/
structure Section where
  uuid : String
  id : String
  title : String
  instructor : String
  dept : String
  year : Binary64
  avg : Binary64
  pass : Binary64
  fail : Binary64
  audit : Binary64
deriving DecidableEq, Repr

/-- A room. -/
structure Room where
  fullname : String
  shortname : String
  number : String
  name : String
  address : String
  lat : Binary64
  lon : Binary64
  seats : Binary64
  type : String
  furniture : String
  href : String
deriving DecidableEq, Repr

namespace Section

def get (s : Section) : SectionField → Value
  | .avg => .number s.avg
  | .pass => .number s.pass
  | .fail => .number s.fail
  | .audit => .number s.audit
  | .year => .number s.year
  | .dept => .text s.dept
  | .id => .text s.id
  | .instructor => .text s.instructor
  | .title => .text s.title
  | .uuid => .text s.uuid

/-- The fields in the order in which a section is written. -/
def layout : List SectionField :=
  [.uuid, .id, .title, .instructor, .dept, .year, .avg, .pass, .fail, .audit]

end Section

namespace Room

def get (r : Room) : RoomField → Value
  | .lat => .number r.lat
  | .lon => .number r.lon
  | .seats => .number r.seats
  | .fullname => .text r.fullname
  | .shortname => .text r.shortname
  | .number => .text r.number
  | .name => .text r.name
  | .address => .text r.address
  | .type => .text r.type
  | .furniture => .text r.furniture
  | .href => .text r.href

/-- The fields in the order in which a room is written. -/
def layout : List RoomField :=
  [.fullname, .shortname, .number, .name, .address, .lat, .lon, .seats, .type, .furniture, .href]

end Room

/-- A record of either kind. -/
inductive Record where
  | section (value : Section)
  | room (value : Room)
deriving DecidableEq, Repr

namespace Record

def kind : Record → Kind
  | .section _ => .sections
  | .room _ => .rooms

/-- The value of a field; a field of the other kind has none. -/
def get? : Record → Field → Option Value
  | .section s, .section f => some (s.get f)
  | .room r, .room f => some (r.get f)
  | _, _ => none

/-- The record of a kind with the given texts and numbers. -/
def ofFields (kind : Kind) (text : Field → String) (number : Field → Binary64) : Record :=
  match kind with
  | .sections => .section {
      uuid := text (.section .uuid)
      id := text (.section .id)
      title := text (.section .title)
      instructor := text (.section .instructor)
      dept := text (.section .dept)
      year := number (.section .year)
      avg := number (.section .avg)
      pass := number (.section .pass)
      fail := number (.section .fail)
      audit := number (.section .audit) }
  | .rooms => .room {
      fullname := text (.room .fullname)
      shortname := text (.room .shortname)
      number := text (.room .number)
      name := text (.room .name)
      address := text (.room .address)
      lat := number (.room .lat)
      lon := number (.room .lon)
      seats := number (.room .seats)
      type := text (.room .type)
      furniture := text (.room .furniture)
      href := text (.room .href) }

/-- Whether every number of the record is finite. Others can be neither ordered nor added. -/
def hasFiniteNumbers (record : Record) : Bool :=
  record.kind.numericFields.all fun f =>
    match record.get? f with
    | some (.number x) => x.isFinite
    | _ => false

/-- A field can be read exactly when it belongs to the record's kind. -/
theorem get?_isSome_iff {record : Record} {f : Field} :
    (record.get? f).isSome = true ↔ f.kind = record.kind := by
  cases record <;> cases f <;> simp [get?, kind, Field.kind]

theorem get?_numeric {record : Record} {f : Field} (hkind : f.kind = record.kind)
    (htype : f.fieldType = .numeric) : ∃ x, record.get? f = some (.number x) := by
  cases record <;> cases f <;> simp only [kind, Field.kind, reduceCtorEq] at hkind
  · next s f => cases f <;> first | exact ⟨_, rfl⟩ | exact absurd htype (by decide)
  · next r f => cases f <;> first | exact ⟨_, rfl⟩ | exact absurd htype (by decide)

theorem get?_text {record : Record} {f : Field} (hkind : f.kind = record.kind)
    (htype : f.fieldType = .text) : ∃ t, record.get? f = some (.text t) := by
  cases record <;> cases f <;> simp only [kind, Field.kind, reduceCtorEq] at hkind
  · next s f => cases f <;> first | exact ⟨_, rfl⟩ | exact absurd htype (by decide)
  · next r f => cases f <;> first | exact ⟨_, rfl⟩ | exact absurd htype (by decide)

/-- A record has finite numbers exactly when every number that can be read from it is finite. -/
theorem hasFiniteNumbers_iff {record : Record} :
    record.hasFiniteNumbers = true ↔
      ∀ f x, record.get? f = some (.number x) → x.isFinite = true := by
  unfold hasFiniteNumbers Kind.numericFields
  simp only [List.all_eq_true, List.mem_filter, Kind.mem_fields_iff, decide_eq_true_eq, and_imp]
  constructor
  · intro hall f x hx
    have hkind : f.kind = record.kind := get?_isSome_iff.1 (by rw [hx]; rfl)
    -- the field has a number, so it is none of the fields that hold texts
    cases htype : f.fieldType with
    | text =>
        obtain ⟨t, ht⟩ := get?_text hkind htype
        exact nomatch hx.symm.trans ht
    | numeric => simpa [hx] using hall f hkind htype
  · intro hfinite f hkind htype
    obtain ⟨x, hx⟩ := get?_numeric hkind htype
    simpa [hx] using hfinite f x hx

end Record

/-- The fields of a kind in the order in which its records are written. -/
def Kind.layout : Kind → List Field
  | .sections => Section.layout.map .section
  | .rooms => Room.layout.map .room

/-- The written order names each field of the kind. -/
theorem Kind.mem_layout_iff {kind : Kind} {f : Field} : f ∈ kind.layout ↔ f.kind = kind := by
  cases kind <;> cases f <;> simp only [layout, Field.kind, List.mem_map, reduceCtorEq, iff_true,
    Field.section.injEq, Field.room.injEq, exists_eq_right, and_false, exists_false]
  · next f => cases f <;> decide
  · next f => cases f <;> decide

end CampusQuery
