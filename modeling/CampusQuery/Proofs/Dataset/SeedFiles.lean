import CampusQuery.Dataset.Seed
import CampusQuery.Proofs.Json.Lists

/-!
# What a seed file is

`SeedFile.WrittenIn` says which texts are seed files, part by part and without
the readers: an object in which each of the three keys stands once, whatever
stands at other keys, or the array of the three parts. These are the texts that
are read, and what is read is what they give.
-/

namespace CampusQuery.SeedFile

open Json.Reader (Form Listed Keyed Finds skipBlanks scalar value)

variable {input rest : List Char} {fuel : Nat} {kind : Kind} {seed : SeedFile}

/-- A kind is written as its name, or as an object whose one key is its name and holds `null`. -/
inductive KindForm : Form Kind where
  | name {input rest : List Char} {kind : Kind} {name : String} (hname : kind.NamedBy name)
      (hread : scalar .kept input = some (.string name, rest)) : KindForm input kind rest
  | key {input rest : List Char} {kind : Kind} {name : String} (hname : kind.NamedBy name)
      (hlisted : Listed (Keyed .kept fun _ input value rest =>
        scalar .kept input = some (value, rest)) '\x7d' input [(name, .null)] rest) :
      KindForm ('\x7b' :: input) kind rest

/-- How the part of a key is written. The values of keys that are no part are passed over. -/
inductive PartForm (fuel : Nat) : String → Form Part where
  | kind {key : String} {input rest : List Char} {kind : Kind} (hkey : key = "kind")
      (hkind : KindForm input kind rest) : PartForm fuel key input (.kind kind) rest
  | value {key : String} {input rest : List Char} {json : Json}
      (hkey : key = "id" ∨ key = "records")
      (hread : value .kept fuel (Json.maxDepth - 1) input = some (json, rest)) :
      PartForm fuel key input (.value json) rest
  | other {key : String} {input rest : List Char} {json : Json}
      (hkey : key ∉ ["id", "kind", "records"])
      (hread : value .skipped fuel fuel input = some (json, rest)) :
      PartForm fuel key input (.value json) rest

/-- Entries give a seed file: each of its keys stands there once, and its value is of its sort. -/
structure GivenBy (seed : SeedFile) (entries : List (String × Part)) : Prop where
  id_once : entries.filter (fun entry => entry.1 = "id") = [("id", .value (.string seed.id))]
  kind_once : entries.filter (fun entry => entry.1 = "kind") = [("kind", .kind seed.kind)]
  records_once :
    entries.filter (fun entry => entry.1 = "records") = [("records", .value seed.records)]

/-- A seed file is written as an object, or as the array of its id, its kind and its records. -/
inductive Written (fuel : Nat) : Form SeedFile where
  | object {input rest : List Char} {entries : List (String × Part)} {seed : SeedFile}
      (hlisted : Listed (Keyed .kept (PartForm fuel)) '\x7d' input entries rest)
      (hgiven : seed.GivenBy entries) : Written fuel ('\x7b' :: input) seed rest
  | array {input afterId beforeKind afterKind beforeRecords afterRecords rest : List Char}
      {seed : SeedFile}
      (hid : value .kept fuel (Json.maxDepth - 1) (skipBlanks input) =
        some (.string seed.id, afterId))
      (hfirst : skipBlanks afterId = ',' :: beforeKind)
      (hkind : KindForm (skipBlanks beforeKind) seed.kind afterKind)
      (hsecond : skipBlanks afterKind = ',' :: beforeRecords)
      (hrecords : value .kept fuel (Json.maxDepth - 1) (skipBlanks beforeRecords) =
        some (seed.records, afterRecords))
      (hclose : skipBlanks afterRecords = ']' :: rest) : Written fuel ('[' :: input) seed rest

/-- A text is a seed file and blanks around it. -/
def WrittenIn (seed : SeedFile) (text : String) : Prop :=
  ∃ rest, Written text.length (skipBlanks text.toList) seed rest ∧ skipBlanks rest = []

/-! ## Kinds -/

theorem scalar_brace (input : List Char) : scalar .kept ('\x7b' :: input) = none := by
  simp [scalar, Json.Reader.number, Json.Reader.digits, List.span_eq_takeWhile_dropWhile]

theorem finds_kindReader (hfuel : 0 < fuel) : Finds (kindReader fuel) KindForm := by
  intro input kind rest
  unfold kindReader
  split
  next input =>
    simp only [Option.bind_eq_bind, Option.bind_eq_some_iff]
    constructor
    · rintro ⟨⟨entries, behind⟩, hentries, hread⟩
      dsimp only at hread
      split at hread
      next name =>
        obtain ⟨found, hname, hend⟩ := Option.map_eq_some_iff.1 hread
        cases hend
        have hlisted := (Json.Reader.bracketed_entry_eq_some_iff (fun _ => .rfl)
          (fun _ => Json.Reader.length_of_scalar) (by simp)).1 hentries
        exact .key (Kind.ofName?_eq_some_iff.1 hname) hlisted.2
      next => cases hread
    · intro hkind
      cases hkind with
      | name _ hread => cases (scalar_brace input).symm.trans hread
      | key hname hlisted =>
          have hentries := (Json.Reader.bracketed_entry_eq_some_iff (fun _ => .rfl)
            (fun _ => Json.Reader.length_of_scalar) (List.cons_ne_nil _ _)).2 ⟨hfuel, hlisted⟩
          exact ⟨_, hentries, by simp [Kind.ofName?_eq_some_iff.2 hname]⟩
  next input hbrace =>
    simp only [Option.bind_eq_bind, Option.bind_eq_some_iff]
    constructor
    · rintro ⟨_, hscalar, hread⟩
      split at hread
      next name behind =>
        obtain ⟨found, hname, hend⟩ := Option.map_eq_some_iff.1 hread
        cases hend
        exact .name (Kind.ofName?_eq_some_iff.1 hname) hscalar
      next => cases hread
    · intro hkind
      cases hkind with
      | name hname hread => exact ⟨_, hread, by simp [Kind.ofName?_eq_some_iff.2 hname]⟩
      | key => exact absurd rfl (hbrace _)

theorem shortens_kindForm : KindForm.Shortens := by
  intro input kind rest hkind
  cases hkind with
  | name _ hread => exact Json.Reader.length_of_scalar hread
  | key _ hlisted =>
      exact Nat.le_succ_of_le
        (hlisted.shortens (Keyed.shortens fun _ => Json.Reader.length_of_scalar))

theorem finds_partReader (hfuel : 0 < fuel) (key : String) :
    Finds (partReader fuel key) (PartForm fuel key) := by
  intro input part rest
  have hvalue (hkey : key = "id" ∨ key = "records") :
      (valueReader fuel input).map (fun found => (.value found.1, found.2)) = some (part, rest) ↔
        PartForm fuel key input part rest := by
    rw [Option.map_eq_some_iff]
    constructor
    · rintro ⟨_, hread, hend⟩
      cases hend
      exact .value hkey hread
    · intro hpart
      cases hpart with
      | kind hother => rcases hkey with rfl | rfl <;> simp at hother
      | value _ hread => exact ⟨_, hread, rfl⟩
      | other hother => rcases hkey with rfl | rfl <;> simp at hother
  unfold partReader
  split
  next =>
    rw [Option.map_eq_some_iff]
    constructor
    · rintro ⟨_, hkind, hend⟩
      cases hend
      exact .kind rfl ((finds_kindReader hfuel).1 hkind)
    · intro hpart
      cases hpart with
      | kind _ hkind => exact ⟨_, (finds_kindReader hfuel).2 hkind, rfl⟩
      | value hkey => simp at hkey
      | other hkey => simp at hkey
  next => exact hvalue (.inl rfl)
  next => exact hvalue (.inr rfl)
  next hkind hid hrecords =>
    rw [Option.map_eq_some_iff]
    constructor
    · rintro ⟨_, hread, hend⟩
      cases hend
      exact .other (by simpa using ⟨hid, hkind, hrecords⟩) hread
    · intro hpart
      cases hpart with
      | kind hkey => exact absurd hkey hkind
      | value hkey => exact absurd hkey (not_or.2 ⟨hid, hrecords⟩)
      | other _ hread => exact ⟨_, hread, rfl⟩

theorem shortens_partForm (key : String) : (PartForm fuel key).Shortens := by
  intro input part rest hpart
  cases hpart with
  | kind _ hkind => exact shortens_kindForm hkind
  | value _ hread => exact Json.Reader.shortens_value _ _ _ hread
  | other _ hread => exact Json.Reader.shortens_value _ _ _ hread

theorem only?_eq_some_iff {α : Type} {key : String} {entries : List (String × α)} {found : α} :
    only? key entries = some found ↔
      entries.filter (fun entry => entry.1 = key) = [(key, found)] := by
  unfold only?
  constructor
  · intro honly
    split at honly
    next name value hfilter =>
      cases honly
      have hmem : (name, found) ∈ entries.filter fun entry => entry.1 = key := by
        rw [hfilter]
        exact List.mem_singleton_self _
      obtain rfl : name = key := by simpa using (List.mem_filter.1 hmem).2
      exact hfilter
    next => cases honly
  · intro hfilter
    rw [hfilter]

theorem ofEntries?_eq_some_iff {entries : List (String × Part)} :
    ofEntries? entries = some seed ↔ seed.GivenBy entries := by
  constructor
  · intro hentries
    unfold ofEntries? at hentries
    split at hentries
    next hid hkind hrecords =>
      cases hentries
      exact ⟨only?_eq_some_iff.1 hid, only?_eq_some_iff.1 hkind, only?_eq_some_iff.1 hrecords⟩
    next => cases hentries
  · intro hgiven
    simp only [ofEntries?, only?_eq_some_iff.2 hgiven.id_once,
      only?_eq_some_iff.2 hgiven.kind_once, only?_eq_some_iff.2 hgiven.records_once]

theorem GivenBy.ne_nil {entries : List (String × Part)} (hgiven : seed.GivenBy entries) :
    entries ≠ [] := by
  rintro rfl
  cases hgiven.id_once

/-- The object form is read, if the fuel is enough for the characters of the text. -/
theorem objectReader_eq_some_iff (hfuel : input.length < fuel) :
    objectReader fuel ('\x7b' :: input) = some (seed, rest) ↔
      Written fuel ('\x7b' :: input) seed rest := by
  have hparts := finds_partReader (Nat.zero_lt_of_lt hfuel)
  unfold objectReader
  simp only [Option.bind_eq_bind, Option.bind_eq_some_iff]
  constructor
  · rintro ⟨⟨entries, behind⟩, hentries, hread⟩
    obtain ⟨found, hfound, hend⟩ := Option.map_eq_some_iff.1 hread
    cases hend
    have hgiven := ofEntries?_eq_some_iff.1 hfound
    have hlisted := (Json.Reader.bracketed_entry_eq_some_iff hparts shortens_partForm
      hgiven.ne_nil).1 hentries
    exact .object hlisted.2 hgiven
  · intro hwritten
    cases hwritten with
    | @object _ _ entries _ hlisted hgiven =>
        have hlength := hlisted.length_add_le (Keyed.shortens shortens_partForm)
        have hread := (Json.Reader.bracketed_entry_eq_some_iff hparts shortens_partForm
          hgiven.ne_nil).2 ⟨show entries.length ≤ fuel by omega, hlisted⟩
        exact ⟨_, hread, by rw [ofEntries?_eq_some_iff.2 hgiven]; rfl⟩

theorem after?_eq_some_iff {mark : Char} : Text.after? mark input = some rest ↔
    input = mark :: rest := by
  cases input with
  | nil => simp [Text.after?]
  | cons c behind => by_cases hmark : c = mark <;> simp [Text.after?, hmark]

theorem arrayReader_eq_some_iff (hfuel : 0 < fuel) :
    arrayReader fuel ('[' :: input) = some (seed, rest) ↔
      Written fuel ('[' :: input) seed rest := by
  unfold arrayReader
  simp only [Option.bind_eq_bind, Option.bind_eq_some_iff, skipComma, Option.map_eq_some_iff,
    after?_eq_some_iff]
  constructor
  · rintro ⟨⟨id, afterId⟩, hid, _, ⟨beforeKind, hfirst, rfl⟩, ⟨kind, afterKind⟩, hkind, _,
      ⟨beforeRecords, hsecond, rfl⟩, ⟨records, afterRecords⟩, hrecords, last, hclose, hread⟩
    split at hread
    next _ name hname =>
      cases hname
      cases hread
      exact .array hid hfirst ((finds_kindReader hfuel).1 hkind) hsecond hrecords hclose
    next => cases hread
  · intro hwritten
    cases hwritten with
    | array hid hfirst hkind hsecond hrecords hclose =>
        exact ⟨_, hid, _, ⟨_, hfirst, rfl⟩, _, (finds_kindReader hfuel).2 hkind, _,
          ⟨_, hsecond, rfl⟩, _, hrecords, _, hclose, rfl⟩

/-- What a text is read as, from its first character that is no blank. -/
theorem reader_eq_some_iff (hfuel : input.length ≤ fuel) :
    (objectReader fuel input).orElse (fun _ => arrayReader fuel input) = some (seed, rest) ↔
      Written fuel input seed rest := by
  by_cases hobject : ∃ behind, input = '\x7b' :: behind
  · obtain ⟨behind, rfl⟩ := hobject
    rw [← objectReader_eq_some_iff hfuel]
    cases objectReader fuel ('\x7b' :: behind) <;> simp [arrayReader]
  · by_cases harray : ∃ behind, input = '[' :: behind
    · obtain ⟨behind, rfl⟩ := harray
      rw [← arrayReader_eq_some_iff (Nat.zero_lt_of_lt hfuel)]
      simp [objectReader]
    · have hnone : objectReader fuel input = none ∧ arrayReader fuel input = none := by
        constructor
        · unfold objectReader
          split
          next behind => exact absurd ⟨behind, rfl⟩ hobject
          next => rfl
        · unfold arrayReader
          split
          next behind => exact absurd ⟨behind, rfl⟩ harray
          next => rfl
      rw [hnone.1, hnone.2]
      refine iff_of_false (fun hread => by cases hread) fun hwritten => ?_
      cases hwritten with
      | object => exact hobject ⟨_, rfl⟩
      | array => exact harray ⟨_, rfl⟩

/-- The texts that are seed files, and what each gives. -/
theorem read?_eq_some_iff {text : String} : read? text = some seed ↔ seed.WrittenIn text := by
  have hfuel : (skipBlanks text.toList).length ≤ text.length := by
    rw [← String.length_toList]
    exact Json.Reader.length_skipBlanks_le _
  rw [read?, Json.Reader.whole_eq_some_iff]
  simp only [reader_eq_some_iff hfuel]
  rfl

end CampusQuery.SeedFile
