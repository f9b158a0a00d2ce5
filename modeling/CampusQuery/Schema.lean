/-!
# Kinds and fields

Every dataset is of one of two kinds, and a kind fixes its fields and their
types once and for all. Field names are resolved to the closed type `Field`;
nothing after that compares strings.
-/

namespace CampusQuery

/-- What the records of a dataset are. -/
inductive Kind where
  | sections
  | rooms
deriving DecidableEq, Repr

/-- What a field holds. -/
inductive FieldType where
  | numeric
  | text
deriving DecidableEq, Repr

/-- Fields of a course section. -/
inductive SectionField where
  | avg
  | pass
  | fail
  | audit
  | year
  | dept
  | id
  | instructor
  | title
  | uuid
deriving DecidableEq, Repr

/-- Fields of a room. -/
inductive RoomField where
  | lat
  | lon
  | seats
  | fullname
  | shortname
  | number
  | name
  | address
  | type
  | furniture
  | href
deriving DecidableEq, Repr

namespace SectionField

/-- The section fields, numeric ones first. -/
def all : List SectionField :=
  [.avg, .pass, .fail, .audit, .year, .dept, .id, .instructor, .title, .uuid]

def bareName : SectionField → String
  | .avg => "avg"
  | .pass => "pass"
  | .fail => "fail"
  | .audit => "audit"
  | .year => "year"
  | .dept => "dept"
  | .id => "id"
  | .instructor => "instructor"
  | .title => "title"
  | .uuid => "uuid"

def fieldType : SectionField → FieldType
  | .avg | .pass | .fail | .audit | .year => .numeric
  | .dept | .id | .instructor | .title | .uuid => .text

/-- No section field is missing from `all`. -/
theorem mem_all (f : SectionField) : f ∈ all := by cases f <;> decide

/-- Section fields are told apart by their names. -/
theorem bareName_injective {f g : SectionField} (hname : f.bareName = g.bareName) : f = g := by
  cases f <;> cases g <;> first | rfl | exact absurd hname (by decide)

end SectionField

namespace RoomField

/-- The room fields, numeric ones first. -/
def all : List RoomField :=
  [.lat, .lon, .seats, .fullname, .shortname, .number, .name, .address, .type, .furniture, .href]

def bareName : RoomField → String
  | .lat => "lat"
  | .lon => "lon"
  | .seats => "seats"
  | .fullname => "fullname"
  | .shortname => "shortname"
  | .number => "number"
  | .name => "name"
  | .address => "address"
  | .type => "type"
  | .furniture => "furniture"
  | .href => "href"

def fieldType : RoomField → FieldType
  | .lat | .lon | .seats => .numeric
  | .fullname | .shortname | .number | .name | .address | .type | .furniture | .href => .text

theorem mem_all (f : RoomField) : f ∈ all := by cases f <;> decide

/-- Room fields are told apart by their names. -/
theorem bareName_injective {f g : RoomField} (hname : f.bareName = g.bareName) : f = g := by
  cases f <;> cases g <;> first | rfl | exact absurd hname (by decide)

end RoomField

/-- A field of either kind. -/
inductive Field where
  | section (field : SectionField)
  | room (field : RoomField)
deriving DecidableEq, Repr

namespace Field

/-- The name without a dataset id. -/
def bareName : Field → String
  | .section f => f.bareName
  | .room f => f.bareName

def fieldType : Field → FieldType
  | .section f => f.fieldType
  | .room f => f.fieldType

def kind : Field → Kind
  | .section _ => .sections
  | .room _ => .rooms

def isNumeric (f : Field) : Bool := f.fieldType = .numeric

/-- The name that refers to the field of a dataset: `id_name`. -/
def qualified (f : Field) (datasetId : String) : String := datasetId ++ "_" ++ f.bareName

end Field

namespace Kind

def name : Kind → String
  | .sections => "sections"
  | .rooms => "rooms"

/-- The kind of an exact name. -/
def ofName? (text : String) : Option Kind :=
  [Kind.sections, .rooms].find? fun kind => kind.name = text

/-- The texts that name the kinds. -/
inductive NamedBy : Kind → String → Prop where
  | sections : NamedBy .sections "sections"
  | rooms : NamedBy .rooms "rooms"

theorem namedBy_name (kind : Kind) : kind.NamedBy kind.name := by
  cases kind with
  | sections => exact .sections
  | rooms => exact .rooms

theorem ofName?_eq_some_iff {text : String} {kind : Kind} :
    ofName? text = some kind ↔ kind.NamedBy text := by
  constructor
  · intro hname
    obtain rfl : kind.name = text := by simpa using List.find?_some hname
    exact kind.namedBy_name
  · intro hnamed
    cases hnamed with
    | sections => rfl
    | rooms => rfl

/-- The kind of a name in any case. Only ASCII letters are lowered, since no other character
lowers to a letter of these names. -/
def ofNameAnyCase? (text : String) : Option Kind := ofName? text.toLower

/-- The fields of a kind, numeric ones first. -/
def fields : Kind → List Field
  | .sections => SectionField.all.map .section
  | .rooms => RoomField.all.map .room

/-- The fields of a kind that hold numbers. -/
def numericFields (kind : Kind) : List Field := kind.fields.filter fun f => f.fieldType = .numeric

/-- The fields of a kind that hold texts. -/
def textFields (kind : Kind) : List Field := kind.fields.filter fun f => f.fieldType = .text

def field? (kind : Kind) (name : String) : Option Field :=
  kind.fields.find? fun f => f.bareName = name

/-- The fields of a kind are the fields that belong to it. -/
theorem mem_fields_iff {kind : Kind} {f : Field} : f ∈ kind.fields ↔ f.kind = kind := by
  cases kind <;> cases f <;>
    simp [fields, Field.kind, SectionField.mem_all, RoomField.mem_all]

/-- Two fields of a kind with one name are the same field. -/
theorem eq_of_bareName_eq {f g : Field} (hkind : f.kind = g.kind)
    (hname : f.bareName = g.bareName) : f = g := by
  cases f <;> cases g <;> simp only [Field.kind, reduceCtorEq] at hkind
  · exact congrArg _ (SectionField.bareName_injective hname)
  · exact congrArg _ (RoomField.bareName_injective hname)

/-- A name resolves to the one field of the kind that has it. -/
theorem field?_eq_some_iff {kind : Kind} {name : String} {f : Field} :
    kind.field? name = some f ↔ f.kind = kind ∧ f.bareName = name := by
  constructor
  · intro hfound
    refine ⟨mem_fields_iff.1 (List.mem_of_find?_eq_some hfound), ?_⟩
    simpa using List.find?_some hfound
  · rintro ⟨hkind, hname⟩
    cases hfound : kind.field? name with
    | none =>
      have hnone := List.find?_eq_none.1 hfound f (mem_fields_iff.2 hkind)
      simp [hname] at hnone
    | some g =>
      have hg := mem_fields_iff.1 (List.mem_of_find?_eq_some hfound)
      have hgname : g.bareName = name := by simpa using List.find?_some hfound
      rw [eq_of_bareName_eq (hg.trans hkind.symm) (hgname.trans hname.symm)]

end Kind

/-- The character between a dataset id and a field name. -/
def separator : Char := '_'

def hasSeparator (text : String) : Bool := text.toList.contains separator

/-- A reference to a field of a dataset, not yet resolved. -/
structure QualifiedName where
  datasetId : String
  field : String
deriving DecidableEq, Repr

namespace QualifiedName

/-- A reference is split at its first separator, and both halves hold something. -/
def parse? (key : String) : Option QualifiedName :=
  match key.toList.span (· != separator) with
  | (_, []) => none
  | (datasetId, _ :: field) =>
      if datasetId.isEmpty || field.isEmpty then none
      else some ⟨String.ofList datasetId, String.ofList field⟩

end QualifiedName

/-- The kinds of the datasets that may be referred to. -/
abbrev Registry := String → Option Kind

end CampusQuery
