import CampusQuery.Http.Percent
import CampusQuery.Service.Route
import Mathlib.Data.List.Basic

/-!
# Paths and their routes

A path has a route exactly if it is written as the path of that route, with
parameters that are not empty and hold no slash. A parameter is the encoded form of
a text: it stands for the octets of that text.
-/

namespace CampusQuery.Service.Route

/-- The parts of a route's path, its parameters as written. -/
def parts : Route → List String
  | .dataset id kind => ["", "api", "v1", "dataset", id, kind]
  | .datasetId id => ["", "api", "v1", "dataset", id]
  | .datasets => ["", "api", "v1", "datasets"]
  | .query => ["", "api", "v1", "query"]
  | .health => ["", "health"]
  | .liveness => ["", "health", "live"]

/-- The path of a route: its parts with slashes between them. -/
def path (route : Route) : String := "/".intercalate route.parts

example : (dataset "courses" "sections").path = "/api/v1/dataset/courses/sections" := by decide

def parameters : Route → List String
  | .dataset id kind => [id, kind]
  | .datasetId id => [id]
  | _ => []

/-- Every parameter fills exactly one part of the path. -/
def IsWritable (route : Route) : Prop :=
  ∀ value ∈ route.parameters, value ≠ "" ∧ '/' ∉ value.toList

/-! ## Splitting paths -/

theorem notMem_of_mem_splitOn {c : Char} {text part : List Char} (hpart : part ∈ text.splitOn c) :
    c ∉ part := by
  induction text generalizing part with
  | nil =>
      rw [List.splitOn_nil, List.mem_singleton] at hpart
      rw [hpart]
      exact List.not_mem_nil
  | cons first rest ih =>
      obtain ⟨head, others, hrest⟩ := List.exists_cons_of_ne_nil (List.splitOn_ne_nil c rest)
      rw [List.splitOn_cons_eq_if_modifyHead, hrest] at hpart
      rw [hrest] at ih
      split at hpart
      · rcases List.mem_cons.1 hpart with rfl | hlater
        · exact List.not_mem_nil
        · exact ih hlater
      next hother =>
        rcases List.mem_cons.1 hpart with rfl | hlater
        · -- the first character goes to the first part
          have hne : c ≠ first := by
            rintro rfl
            exact hother (beq_self_eq_true _)
          simpa [hne] using ih List.mem_cons_self
        · exact ih (List.mem_cons_of_mem _ hlater)

/-- The parts of a path are those without slashes that give the path when slashes are put between
them. -/
theorem segments_eq_iff {text : String} {parts : List String} (hparts : parts ≠ []) :
    segments text = parts ↔
      text = "/".intercalate parts ∧ ∀ part ∈ parts, '/' ∉ part.toList := by
  have hslash : "/".toList = ['/'] := by decide
  rw [← String.toList_inj, String.toList_intercalate, hslash]
  constructor
  · rintro rfl
    have hlists : (segments text).map String.toList = text.toList.splitOn '/' := by
      simp [segments]
    refine ⟨by rw [hlists, List.intercalate_splitOn], fun part hpart => ?_⟩
    have hmem : part.toList ∈ text.toList.splitOn '/' := hlists ▸ List.mem_map_of_mem hpart
    exact notMem_of_mem_splitOn hmem
  · intro hjoined
    have hsplit : (['/'].intercalate (parts.map String.toList)).splitOn '/' =
        parts.map String.toList :=
      List.splitOn_intercalate '/' (by simpa using hjoined.2) (by simpa using hparts)
    rw [segments, hjoined.1, hsplit]
    simp

theorem parts_ne_nil (route : Route) : route.parts ≠ [] := by
  cases route <;> exact List.cons_ne_nil _ _

/-- Besides the parameters no part of a path holds a slash. -/
theorem isWritable_iff {route : Route} :
    route.IsWritable ↔
      (∀ value ∈ route.parameters, value ≠ "") ∧ ∀ part ∈ route.parts, '/' ∉ part.toList := by
  cases route <;> simp [IsWritable, parameters, parts]
  tauto

theorem segments_of_ofPath? {text : String} {route : Route} (hroute : ofPath? text = some route) :
    segments text = route.parts ∧ ∀ value ∈ route.parameters, value ≠ "" := by
  unfold ofPath? at hroute
  split at hroute
  next id kind hsegments =>
    split at hroute
    · exact nomatch hroute
    next hfilled =>
      cases hroute
      exact ⟨hsegments, by simpa [parameters] using hfilled⟩
  next id hsegments =>
    split at hroute
    · exact nomatch hroute
    next hfilled =>
      cases hroute
      exact ⟨hsegments, by simpa [parameters] using hfilled⟩
  all_goals cases hroute
  all_goals exact ⟨‹_›, by simp [parameters]⟩

theorem ofPath?_of_segments {text : String} {route : Route}
    (hsegments : segments text = route.parts)
    (hfilled : ∀ value ∈ route.parameters, value ≠ "") : ofPath? text = some route := by
  unfold ofPath?
  rw [hsegments]
  cases route <;> simp_all [parts, parameters]

/-- A path has a route exactly if it is written as the route's path, with parameters that can be
told apart. -/
theorem ofPath?_eq_some_iff {text : String} {route : Route} :
    ofPath? text = some route ↔ text = route.path ∧ route.IsWritable := by
  have hroute : ofPath? text = some route ↔
      segments text = route.parts ∧ ∀ value ∈ route.parameters, value ≠ "" :=
    ⟨segments_of_ofPath?, fun hwritten => ofPath?_of_segments hwritten.1 hwritten.2⟩
  rw [hroute, segments_eq_iff route.parts_ne_nil, isWritable_iff, path]
  tauto

end CampusQuery.Service.Route

namespace CampusQuery.Http

/-! ## Parameters -/

/-- Characters stand for octets: a percent sign and two hexadecimal digits for one, every other
character for its own. -/
inductive StandsFor : List Char → List UInt8 → Prop where
  | nil : StandsFor [] []
  | octet {high low : Char} {a b : Nat} {rest : List Char} {octets : List UInt8}
      (hhigh : Text.hexDigit? high = some a) (hlow : Text.hexDigit? low = some b)
      (hrest : StandsFor rest octets) :
      StandsFor ('%' :: high :: low :: rest) (UInt8.ofNat (16 * a + b) :: octets)
  | char {c : Char} {rest : List Char} {octets : List UInt8}
      (hplain : ∀ high low behind, c :: rest = '%' :: high :: low :: behind →
        Text.hexDigit? high = none ∨ Text.hexDigit? low = none)
      (hrest : StandsFor rest octets) : StandsFor (c :: rest) (String.utf8EncodeChar c ++ octets)

theorem percentOctets_of_plain {c : Char} {rest : List Char}
    (hplain : ∀ high low behind, c :: rest = '%' :: high :: low :: behind →
      Text.hexDigit? high = none ∨ Text.hexDigit? low = none) :
    percentOctets (c :: rest) = String.utf8EncodeChar c ++ percentOctets rest := by
  conv_lhs => unfold percentOctets
  split
  next high low behind hsplit =>
    have hnone := hplain high low behind hsplit
    cases hsplit
    split
    next ha hb => rcases hnone with hnone | hnone <;> simp_all
    next => rfl
  next hsplit =>
    cases hsplit
    rfl
  next hsplit => cases hsplit

theorem standsFor_percentOctets (chars : List Char) : StandsFor chars (percentOctets chars) := by
  fun_induction percentOctets chars with
  | case1 high low rest a b hb ha ih => exact .octet ha hb ih
  | case2 high low rest hnone ih =>
      -- without two digits behind it a percent sign is a character as any other
      refine @StandsFor.char '%' _ _ ?_ ih
      rintro _ _ _ ⟨⟩
      by_contra hboth
      obtain ⟨⟨a, ha⟩, b, hb⟩ :=
        (not_or.1 hboth).imp Option.ne_none_iff_exists'.1 Option.ne_none_iff_exists'.1
      exact hnone a b ha hb
  | case3 c rest hsplit ih =>
      refine .char ?_ ih
      rintro high low behind ⟨⟩
      exact (hsplit high low behind rfl rfl).elim
  | case4 => exact .nil

theorem standsFor_iff {chars : List Char} {octets : List UInt8} :
    StandsFor chars octets ↔ percentOctets chars = octets := by
  constructor
  · intro hstands
    induction hstands with
    | nil => rfl
    | octet hhigh hlow _ ih => simp only [percentOctets, hhigh, hlow, ih]
    | char hplain _ ih => rw [percentOctets_of_plain hplain, ih]
  · rintro rfl
    exact standsFor_percentOctets chars

/-- A text is encoded by another that stands for its octets. -/
def Encodes (encoded text : String) : Prop := StandsFor encoded.toList text.toUTF8.data.toList

theorem percentDecode?_eq_some_iff {encoded text : String} :
    percentDecode? encoded = some text ↔ Encodes encoded text := by
  unfold percentDecode? Encodes String.fromUTF8?
  rw [standsFor_iff]
  constructor
  · intro hdecode
    split at hdecode
    next hvalid =>
      cases hdecode
      rfl
    next => cases hdecode
  · intro hoctets
    rw [hoctets]
    exact dif_pos text.isValidUTF8

end CampusQuery.Http
