import CampusQuery.Proofs.Json.Entries
import CampusQuery.Proofs.Query.Documents

/-!
# What a document asks a registry for

A document names an id if one of its texts is a reference into the dataset of
that id. Registries that agree on the ids a document names judge it alike, and
where it is refused they find the same violation.
-/

namespace CampusQuery

namespace Json

/-- A text stands in a value, as a string or as a key. -/
inductive Mentions (text : String) : Json → Prop where
  | string : Mentions text (.string text)
  | item {items : List Json} {item : Json} : item ∈ items → Mentions text item →
      Mentions text (.array items)
  | key {entries : List (String × Json)} {value : Json} : (text, value) ∈ entries →
      Mentions text (.object entries)
  | value {entries : List (String × Json)} {key : String} {value : Json} :
      (key, value) ∈ entries → Mentions text value → Mentions text (.object entries)

/-- One of the texts of a document is a reference into the dataset of an id. -/
def Names (document : Json) (id : String) : Prop :=
  ∃ text name, document.Mentions text ∧ QualifiedName.parse? text = some name ∧
    name.datasetId = id

end Json

namespace Query

variable {α β : Type} {first second : Registry}

/-- Registries agree on the datasets that the texts of a value refer into. -/
def AgreeOn (first second : Registry) (value : Json) : Prop :=
  ∀ text name, value.Mentions text → QualifiedName.parse? text = some name →
    first name.datasetId = second name.datasetId

namespace AgreeOn

theorem of_names {document : Json} (hnames : ∀ id, document.Names id → first id = second id) :
    AgreeOn first second document :=
  fun text name hmentions hparse => hnames name.datasetId ⟨text, name, hmentions, hparse, rfl⟩

theorem part {whole part : Json} (hwhole : AgreeOn first second whole)
    (hpart : ∀ text, part.Mentions text → whole.Mentions text) : AgreeOn first second part :=
  fun text name hmentions hparse => hwhole text name (hpart text hmentions) hparse

theorem item {items : List Json} (hitems : AgreeOn first second (.array items)) :
    ∀ item ∈ items, AgreeOn first second item :=
  fun _ hitem => hitems.part fun _ => .item hitem

theorem entry {entries : List (String × Json)} (hentries : AgreeOn first second (.object entries))
    {key : String} {value : Json} (hentry : (key, value) ∈ entries) : AgreeOn first second value :=
  hentries.part fun _ => .value hentry

theorem lookup {entries : List (String × Json)} (hentries : AgreeOn first second (.object entries))
    (key : String) : AgreeOn first second ((Json.lookup? key entries).getD .null) := by
  cases hfound : Json.lookup? key entries with
  | none => exact fun text name hmentions => nomatch hmentions
  | some value => exact hentries.entry (Json.mem_of_lookup? hfound)

end AgreeOn

/-! ## References -/

/-- What follows a check that does not look at registries only has to agree on what it answers. -/
theorem lift_bind_congr {answer : Except Violation α} {next other : α → Check β}
    (hnext : ∀ a, answer = .ok a → next a = other a) :
    (liftM answer >>= next : Check β) = liftM answer >>= other := by
  cases answer with
  | error violation => rfl
  | ok a => exact hnext a rfl

theorem resolveField_congr {key : String} {value : Json} (hagree : AgreeOn first second value)
    (hkey : value.Mentions key) : resolveField first key = resolveField second key := by
  unfold resolveField
  split
  next => rfl
  next name hparse =>
    have hbind : bindDataset first name.datasetId = bindDataset second name.datasetId := by
      unfold bindDataset
      rw [hagree key name hkey hparse]
    rw [hbind]

theorem resolveTyped_congr {key : String} {value : Json} (hagree : AgreeOn first second value)
    (hkey : value.Mentions key) (wanted : FieldType) (part : Part) :
    resolveTyped first key wanted part = resolveTyped second key wanted part := by
  unfold resolveTyped
  rw [resolveField_congr hagree hkey]

/-! ## Filters -/

theorem node_congr {body : FilterBody} (hagree : AgreeOn first second body.toJson) (place : Nat) :
    body.node first place = body.node second place := by
  cases body with
  | logic op children => rfl
  | not child => rfl
  | compare op key operand =>
      have hkey : Json.Mentions key (.object [(op.key, .object [(key, operand)])]) :=
        .value List.mem_cons_self (.key List.mem_cons_self)
      rw [FilterBody.node, FilterBody.node, resolveTyped_congr hagree hkey]
  | matching key operand =>
      have hkey : Json.Mentions key (.object [("IS", .object [(key, operand)])]) :=
        .value List.mem_cons_self (.key List.mem_cons_self)
      rw [FilterBody.node, FilterBody.node, resolveTyped_congr hagree hkey]

theorem mentions_of_mem_children {body : FilterBody} {child : Json} (hchild : child ∈ body.children)
    {text : String} (htext : child.Mentions text) : body.toJson.Mentions text := by
  cases body with
  | logic op children => exact .value List.mem_cons_self (.item hchild htext)
  | not inner =>
      obtain rfl := List.mem_singleton.1 hchild
      exact .value List.mem_cons_self htext
  | compare => exact absurd hchild List.not_mem_nil
  | matching => exact absurd hchild List.not_mem_nil

theorem filterNodes_congr (next : Nat) (queue : List Json)
    (hagree : ∀ filter ∈ queue, AgreeOn first second filter) :
    filterNodes first next queue = filterNodes second next queue := by
  -- by the recursion that empties the queue; the registry it is unfolded at does not matter
  induction next, queue using filterNodes.induct with
  | case1 next => rw [filterNodes, filterNodes]
  | case2 next filter queue violation hbody =>
      rw [filterNodes_of_error hbody, filterNodes_of_error hbody]
  | case3 next filter queue body hbody ih =>
      obtain ⟨hfilter, hqueue⟩ := List.forall_mem_cons.1 hagree
      rw [← (FilterBody.ofJson_eq_ok_iff.1 hbody).1] at hfilter
      rw [filterNodes_of_ok hbody, filterNodes_of_ok hbody, node_congr hfilter, ih]
      intro other hother
      rcases List.mem_append.1 hother with hold | hchild
      · exact hqueue other hold
      · exact hfilter.part fun _ => mentions_of_mem_children hchild

theorem filterOf_congr {value : Json} (hagree : AgreeOn first second value) :
    filterOf first value = filterOf second value := by
  unfold filterOf
  rw [filterNodes_congr 1 [value] (by simpa using hagree)]

/-! ## Transformations -/

theorem groupFields_congr {items : List Json}
    (hagree : ∀ item ∈ items, AgreeOn first second item) :
    groupFields first items = groupFields second items := by
  induction items with
  | nil => rfl
  | cons item rest ih =>
      obtain ⟨hitem, hrest⟩ := List.forall_mem_cons.1 hagree
      unfold groupFields
      refine lift_bind_congr fun key hkey => ?_
      obtain rfl := Check.asKey_eq_ok_iff.1 hkey
      rw [resolveField_congr hitem .string, ih hrest]

theorem applyRule_congr {item : Json} (hagree : AgreeOn first second item) :
    applyRule first item = applyRule second item := by
  unfold applyRule
  refine lift_bind_congr fun (name, body) hentry => ?_
  obtain rfl := Check.asEntry_eq_ok_iff.1 hentry
  refine bind_congr fun _ => lift_bind_congr fun (token, target) hbody => ?_
  obtain rfl := Check.asEntry_eq_ok_iff.1 hbody
  refine bind_congr fun token => lift_bind_congr fun key hkey => ?_
  obtain rfl := asTarget_eq_ok_iff.1 hkey
  rw [resolveField_congr hagree (.value List.mem_cons_self (.value List.mem_cons_self .string))]

theorem applyRules_congr {used : List String} {items : List Json}
    (hagree : ∀ item ∈ items, AgreeOn first second item) :
    applyRules first used items = applyRules second used items := by
  induction items generalizing used with
  | nil => rfl
  | cons item rest ih =>
      obtain ⟨hitem, hrest⟩ := List.forall_mem_cons.1 hagree
      unfold applyRules
      rw [applyRule_congr hitem]
      refine bind_congr fun rule => ?_
      rw [ih hrest]

theorem transformOf_congr {value : Json} (hagree : AgreeOn first second value) :
    transformOf first value = transformOf second value := by
  unfold transformOf
  refine lift_bind_congr fun entries hentries => ?_
  obtain rfl := Check.asObject_eq_ok_iff.1 hentries
  refine bind_congr fun _ => lift_bind_congr fun group hgroup => ?_
  have hgroups := hagree.lookup "GROUP"
  rw [(Check.asItems_eq_ok_iff.1 hgroup).1] at hgroups
  rw [groupFields_congr hgroups.item]
  refine bind_congr fun group => lift_bind_congr fun rules hrules => ?_
  have happly := hagree.lookup "APPLY"
  rw [asRules_eq_ok_iff.1 hrules] at happly
  rw [applyRules_congr happly.item]

/-! ## Options -/

theorem columnSource_congr (transform : Option Transform) {name : String}
    (hagree : AgreeOn first second (.string name)) :
    columnSource first transform name = columnSource second transform name := by
  unfold columnSource
  rw [resolveField_congr hagree .string]

theorem columnsAfter_congr (transform : Option Transform) {before : List Column}
    {items : List Json} (hagree : ∀ item ∈ items, AgreeOn first second item) :
    columnsAfter first transform before items = columnsAfter second transform before items := by
  induction items generalizing before with
  | nil => rfl
  | cons item rest ih =>
      obtain ⟨hitem, hrest⟩ := List.forall_mem_cons.1 hagree
      unfold columnsAfter
      refine lift_bind_congr fun name hname => ?_
      obtain rfl := Check.asKey_eq_ok_iff.1 hname
      rw [columnSource_congr transform hitem]
      simp only [ih hrest]

theorem optionsOf_congr (transform : Option Transform) {value : Json}
    (hagree : AgreeOn first second value) :
    optionsOf first transform value = optionsOf second transform value := by
  unfold optionsOf
  refine lift_bind_congr fun entries hentries => ?_
  obtain rfl := Check.asObject_eq_ok_iff.1 hentries
  refine bind_congr fun _ => lift_bind_congr fun items hitems => ?_
  have hcolumns := hagree.lookup "COLUMNS"
  rw [(Check.asItems_eq_ok_iff.1 hitems).1] at hcolumns
  rw [columnsAfter_congr transform hcolumns.item]

/-! ## Documents -/

theorem transformPart_congr {entries : List (String × Json)}
    (hagree : AgreeOn first second (.object entries)) :
    transformPart first entries = transformPart second entries := by
  unfold transformPart
  split
  next => rfl
  next value hvalue => rw [transformOf_congr (hagree.entry (Json.mem_of_lookup? hvalue))]

theorem documentParts_congr {document : Json} (hagree : AgreeOn first second document) :
    documentParts first document = documentParts second document := by
  unfold documentParts
  refine lift_bind_congr fun entries hentries => ?_
  obtain rfl := Check.asObject_eq_ok_iff.1 hentries
  rw [filterOf_congr (hagree.lookup "WHERE"), transformPart_congr hagree]
  refine bind_congr fun _ => bind_congr fun filter => bind_congr fun transform => ?_
  rw [optionsOf_congr transform (hagree.lookup "OPTIONS")]

/-- Registries that agree on the ids a document names come to the same plan of it, or to the same
refusal. -/
theorem plan_congr {document : Json} (hnames : ∀ id, document.Names id → first id = second id) :
    plan first document = plan second document := by
  have hparts := documentParts_congr (AgreeOn.of_names hnames)
  unfold plan Plan.ofDocument
  rw [checkDocument_eq, checkDocument_eq, hparts]

end Query

end CampusQuery
