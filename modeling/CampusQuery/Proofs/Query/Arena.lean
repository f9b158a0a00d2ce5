import CampusQuery.Proofs.Query.Condition
import Mathlib.Data.List.GetD

/-!
# Filters as listed conditions

A written filter becomes the list of its conditions in breadth-first order, with
children given by their places. The truth of that list at its front is the
truth of the conditions that are queued there.
-/

namespace CampusQuery.Query

/-! ## Names -/

/-- The one of its kind that has a name is the one found by the name. -/
theorem find?_name_eq_some_iff {α : Type} {all : List α} {name : α → String} {text : String}
    {a : α} (hall : ∀ a, a ∈ all) (hname : ∀ {a b}, name a = name b → a = b) :
    (all.find? fun a => name a = text) = some a ↔ name a = text := by
  constructor
  · intro hfound
    simpa using List.find?_some hfound
  · intro htext
    cases hfound : all.find? fun a => name a = text with
    | none => exact absurd htext (by simpa using List.find?_eq_none.1 hfound a (hall a))
    | some b =>
        have hb : name b = text := by simpa using List.find?_some hfound
        rw [hname (hb.trans htext.symm)]

theorem LogicOp.ofKey?_eq_some_iff {key : String} {op : LogicOp} :
    LogicOp.ofKey? key = some op ↔ op.key = key :=
  find?_name_eq_some_iff (fun op => by cases op <;> simp)
    fun {a b} => by cases a <;> cases b <;> decide

theorem CompareOp.ofKey?_eq_some_iff {key : String} {op : CompareOp} :
    CompareOp.ofKey? key = some op ↔ op.key = key :=
  find?_name_eq_some_iff (fun op => by cases op <;> simp)
    fun {a b} => by cases a <;> cases b <;> decide

/-! ## Filter bodies -/

namespace Check

theorem asObject_eq_ok_iff {part : Part} {value : Json} {entries : List (String × Json)} :
    asObject part value = .ok entries ↔ value = .object entries := by
  cases value <;> simp [asObject]

theorem asItems_eq_ok_iff {part : Part} {value : Json} {items : List Json} :
    asItems part value = .ok items ↔ value = .array items ∧ items ≠ [] := by
  cases value with
  | array found =>
      simp only [asItems, List.isEmpty_iff]
      split
      next hempty =>
        subst hempty
        simp only [reduceCtorEq, false_iff, not_and, Json.array.injEq]
        rintro rfl
        simp
      next hfilled =>
        simp only [Except.ok.injEq, Json.array.injEq]
        constructor
        · rintro rfl
          exact ⟨rfl, hfilled⟩
        · rintro ⟨rfl, _⟩
          rfl
  | _ => simp [asItems]

theorem asEntry_eq_ok_iff {part : Part} {value : Json} {entry : String × Json} :
    asEntry part value = .ok entry ↔ value = .object [entry] := by
  unfold asEntry
  cases value with
  | object entries =>
      match entries with
      | [] => simp [asObject, singleEntry, bind, Except.bind]
      | [found] => simp [asObject, singleEntry, bind, Except.bind]
      | first :: second :: rest => simp [asObject, singleEntry, bind, Except.bind]
  | _ => simp [asObject, bind, Except.bind]

end Check

namespace FilterBody

/-- The filter that a body is split from. -/
def toJson : FilterBody → Json
  | .logic op children => .object [(op.key, .array children)]
  | .not child => .object [("NOT", child)]
  | .compare op key operand => .object [(op.key, .object [(key, operand)])]
  | .matching key operand => .object [("IS", .object [(key, operand)])]

/-- What is checked of a body's children before they are looked at. -/
def Admissible : FilterBody → Prop
  | .logic _ children => children ≠ []
  | .not child => ∃ entries, child = .object entries
  | .compare .. => True
  | .matching .. => True

theorem toJson_of_ofEntry {key : String} {value : Json} {body : FilterBody}
    (hbody : ofEntry key value = .ok body) :
    body.toJson = .object [(key, value)] ∧ body.Admissible := by
  unfold ofEntry at hbody
  split at hbody
  next op hop =>
    obtain ⟨items, hitems, rfl⟩ := Answer.map_eq_ok_iff.1 hbody
    obtain ⟨rfl, hfilled⟩ := Check.asItems_eq_ok_iff.1 hitems
    rw [← LogicOp.ofKey?_eq_some_iff.1 hop]
    exact ⟨rfl, hfilled⟩
  next =>
    split at hbody
    next op hop =>
      obtain ⟨entry, hentry, rfl⟩ := Answer.map_eq_ok_iff.1 hbody
      rw [← CompareOp.ofKey?_eq_some_iff.1 hop, Check.asEntry_eq_ok_iff.1 hentry]
      exact ⟨rfl, trivial⟩
    next =>
      split at hbody
      next hnot =>
        obtain ⟨entries, hentries, rfl⟩ := Answer.map_eq_ok_iff.1 hbody
        rw [hnot]
        exact ⟨rfl, entries, Check.asObject_eq_ok_iff.1 hentries⟩
      next =>
        split at hbody
        next his =>
          obtain ⟨entry, hentry, rfl⟩ := Answer.map_eq_ok_iff.1 hbody
          rw [his, Check.asEntry_eq_ok_iff.1 hentry]
          exact ⟨rfl, trivial⟩
        next => cases hbody

theorem ofEntry_of_toJson {key : String} {value : Json} {body : FilterBody}
    (hspelled : body.toJson = .object [(key, value)]) (hadmissible : body.Admissible) :
    ofEntry key value = .ok body := by
  cases body with
  | logic op children =>
      cases hspelled
      have hitems : asItems (.logic op) (.array children) = .ok children :=
        Check.asItems_eq_ok_iff.2 ⟨rfl, hadmissible⟩
      rw [ofEntry, LogicOp.ofKey?_eq_some_iff.2 rfl]
      exact Answer.map_eq_ok_iff.2 ⟨children, hitems, rfl⟩
  | not child =>
      cases hspelled
      obtain ⟨entries, rfl⟩ := hadmissible
      rfl
  | compare op name operand =>
      cases hspelled
      cases op <;> rfl
  | matching name operand =>
      cases hspelled
      rfl

/-- A filter is split into a body exactly when the body spells it. -/
theorem ofJson_eq_ok_iff {filter : Json} {body : FilterBody} :
    ofJson filter = .ok body ↔ body.toJson = filter ∧ body.Admissible := by
  unfold ofJson
  constructor
  · intro hbody
    cases hentry : asEntry .filter filter with
    | error violation => simp [hentry, bind, Except.bind] at hbody
    | ok entry =>
        rw [Check.asEntry_eq_ok_iff.1 hentry]
        exact toJson_of_ofEntry (by simpa [hentry, bind, Except.bind] using hbody)
  · intro hnode
    obtain ⟨rfl, hadmissible⟩ := hnode
    obtain ⟨entry, hspelled⟩ : ∃ entry, body.toJson = .object [entry] := by
      cases body <;> exact ⟨_, rfl⟩
    have hentry : asEntry .filter body.toJson = .ok entry := Check.asEntry_eq_ok_iff.2 hspelled
    simpa [hentry, bind, Except.bind] using ofEntry_of_toJson hspelled hadmissible

theorem coherent_node {registry : Registry} (place : Nat) (body : FilterBody) :
    Coherent registry (body.node registry place) := by
  cases body with
  | logic op children => exact .pure _
  | not child => exact .pure _
  | compare op key operand =>
      refine (coherent_resolveTyped key .numeric (.compare op)).bind fun field => ?_
      cases operand <;> first | exact .pure _ | exact .throw _
  | matching key operand =>
      refine (coherent_resolveTyped key .text .is).bind fun field => ?_
      cases operand with
      | string raw =>
          dsimp only
          cases Pattern.parse? raw with
          | some pattern => exact .pure _
          | none => exact .throw _
      | _ => exact .throw _

end FilterBody

/-! ## Queued filters -/

section Queue

variable {registry : Registry} {next : Nat} {filter : Json} {queue : List Json}

theorem filterNodes_of_error {violation : Violation}
    (hbody : FilterBody.ofJson filter = .error violation) :
    filterNodes registry next (filter :: queue) = throw violation := by
  rw [filterNodes]
  split
  next found hfound =>
    cases hfound.symm.trans hbody
    rfl
  next found hfound => cases hfound.symm.trans hbody

theorem filterNodes_of_ok {body : FilterBody} (hbody : FilterBody.ofJson filter = .ok body) :
    filterNodes registry next (filter :: queue) = (do
      let node ← body.node registry next
      let nodes ← filterNodes registry (next + body.children.length) (queue ++ body.children)
      pure (node :: nodes)) := by
  rw [filterNodes]
  split
  next found hfound => cases hfound.symm.trans hbody
  next found hfound =>
    cases hfound.symm.trans hbody
    rfl

theorem coherent_filterNodes (next : Nat) (queue : List Json) :
    Coherent registry (filterNodes registry next queue) := by
  induction next, queue using filterNodes.induct with
  | case1 next =>
      rw [filterNodes]
      exact .pure _
  | case2 next filter queue violation hbody =>
      rw [filterNodes_of_error hbody]
      exact .throw violation
  | case3 next filter queue body hbody ih =>
      rw [filterNodes_of_ok hbody]
      exact (body.coherent_node next).bind fun node => ih.bind fun nodes => .pure _

end Queue

/-! ## Listing conditions breadth-first -/

namespace Condition

/-- The node of a condition whose parts stand from a place on. -/
def node (place : Nat) : Condition → FilterNode
  | .logic op parts => .logic op (List.range' place parts.length)
  | .not _ => .not place
  | .compare op field constant => .compare op field constant
  | .matching field pattern => .matching field pattern

/-- The nodes of queued conditions and of all conditions inside them, in breadth-first order.
`next` is the first place that no queued condition has. -/
def breadthFirst (next : Nat) : List Condition → List FilterNode
  | [] => []
  | condition :: queue =>
      condition.node next ::
        breadthFirst (next + condition.parts.length) (queue ++ condition.parts)
termination_by queue => (queue.map size).sum
decreasing_by
  rw [List.map_append, List.sum_append, List.map_cons, List.sum_cons, size_eq]
  omega

/-- The node of a condition is true when the truth given for the places of its parts is theirs. -/
theorem holds_node {record : Record} {truth : Nat → Bool} {place : Nat} {condition : Condition}
    (htruth : (List.range' place condition.parts.length).map truth =
      condition.parts.map (holds record)) :
    (condition.node place).holds truth record = condition.holds record := by
  -- only the first two cases look at the places at all
  cases condition with
  | logic op inner =>
      cases op with
      | and =>
          rw [holds_and, node, FilterNode.holds]
          simpa [parts, List.all_map] using congrArg (List.all · id) htruth
      | or =>
          rw [holds_or, node, FilterNode.holds]
          simpa [parts, List.any_map] using congrArg (List.any · id) htruth
  | not inner =>
      rw [holds_not, node, FilterNode.holds]
      simpa [parts] using htruth
  | compare op field constant =>
      simp only [node, holds, FilterNode.holds, CompareOp.holds_eq_lies]
      cases record.get? field with
      | none => rfl
      | some value => cases value <;> rfl
  | matching field pattern =>
      simp only [node, holds, FilterNode.holds]
      cases record.get? field with
      | none => rfl
      | some value => cases value <;> rfl

/-- The truth of the listed nodes begins with the truth of the queued conditions. -/
theorem map_holds_prefix_truths (record : Record) (start next : Nat) (queue : List Condition)
    (hnext : next = start + queue.length) :
    queue.map (holds record) <+: FilterTree.truths record start (breadthFirst next queue) := by
  -- by the recursion that lists the conditions; `start` is the place of the one at the front
  induction next, queue using breadthFirst.induct generalizing start with
  | case1 next => simp [breadthFirst, FilterTree.truths]
  | case2 next condition queue ih =>
      rw [List.length_cons] at hnext
      have hlater := ih (start + 1) (by rw [List.length_append]; omega)
      rw [breadthFirst, FilterTree.truths, List.map_cons, List.cons_prefix_cons]
      refine ⟨(holds_node ?_).symm, (List.prefix_append _ _).trans (List.map_append ▸ hlater)⟩
      -- the parts stand right behind the queued conditions
      obtain ⟨rest, hrest⟩ := hlater
      rw [← hrest, List.map_append, List.append_assoc]
      apply List.ext_getElem (by simp)
      intro i hleft hright
      have hbehind : (queue.map (holds record)).length ≤ next + 1 * i - (start + 1) := by
        rw [List.length_map]
        omega
      have hplace : next + 1 * i - (start + 1) - (queue.map (holds record)).length = i := by
        rw [List.length_map]
        omega
      simp only [List.getElem_map, List.getElem_range']
      rw [List.getD_append_right _ _ _ _ hbehind, hplace, List.getD_append _ _ _ _ hright,
        List.getD_eq_getElem _ _ hright, List.getElem_map]

/-- The filter of a condition: its conditions in breadth-first order, itself at the front. -/
def tree (condition : Condition) : FilterTree := ⟨breadthFirst 1 [condition]⟩

/-- A filter holds of exactly the records that its condition is true of. -/
theorem holds_tree (record : Record) (condition : Condition) :
    condition.tree.holds record = condition.holds record := by
  obtain ⟨rest, hrest⟩ := map_holds_prefix_truths record 0 1 [condition] rfl
  rw [FilterTree.holds, tree, ← hrest]
  rfl

/-! ## Reading queued filters -/

/-- A written condition is an object with one entry. -/
theorem WrittenBy.eq_object {bound : Bound} {condition : Condition} {filter : Json}
    (hwritten : condition.WrittenBy bound filter) : ∃ entry, filter = .object [entry] := by
  cases hwritten <;> exact ⟨_, rfl⟩

/-- The body of a written condition: its children write the parts, and its node is the
condition's. -/
theorem WrittenBy.exists_body {bound : Bound} {condition : Condition} {filter : Json}
    (hwritten : condition.WrittenBy bound filter) :
    ∃ body, FilterBody.ofJson filter = .ok body ∧
      List.Forall₂ (WrittenBy bound) condition.parts body.children ∧
      ∀ registry place,
        (body.node registry place).run (some bound) = .ok (condition.node place, some bound) := by
  cases hwritten with
  | @logic op parts items hfilled hparts =>
      refine ⟨.logic op items, FilterBody.ofJson_eq_ok_iff.2 ⟨rfl, hfilled⟩, hparts, ?_⟩
      intro registry place
      rw [node, hparts.length_eq]
      rfl
  | @not part item hpart =>
      obtain ⟨entry, rfl⟩ := hpart.eq_object
      refine ⟨.not (.object [entry]), FilterBody.ofJson_eq_ok_iff.2 ⟨rfl, _, rfl⟩, ?_, ?_⟩
      · exact .cons hpart .nil
      · intro registry place
        rfl
  | @compare op key field constant hrefers htype =>
      refine ⟨.compare op key (.number constant), FilterBody.ofJson_eq_ok_iff.2 ⟨rfl, trivial⟩,
        .nil, ?_⟩
      intro registry place
      rw [FilterBody.node, Check.run_bind_eq_ok_iff]
      exact ⟨field, _, resolveTyped_run_some_eq_ok_iff.2 ⟨⟨hrefers, htype⟩, rfl⟩, rfl⟩
  | @matching key raw field pattern hrefers htype hpattern =>
      refine ⟨.matching key (.string raw), FilterBody.ofJson_eq_ok_iff.2 ⟨rfl, trivial⟩, .nil, ?_⟩
      intro registry place
      rw [FilterBody.node, Check.run_bind_eq_ok_iff]
      refine ⟨field, _, resolveTyped_run_some_eq_ok_iff.2 ⟨⟨hrefers, htype⟩, rfl⟩, ?_⟩
      simp only [Pattern.parse?_eq_some_iff.2 hpattern]
      rfl

/-- A body that becomes a node is the body of a condition. -/
theorem exists_of_node {registry : Registry} {bound : Bound} {filter : Json} {body : FilterBody}
    {parts : List Condition} {place : Nat} {found : FilterNode} {state : Option Bound}
    (hbody : FilterBody.ofJson filter = .ok body)
    (hparts : List.Forall₂ (WrittenBy bound) parts body.children)
    (hnode : (body.node registry place).run (some bound) = .ok (found, state)) :
    ∃ condition : Condition, condition.WrittenBy bound filter ∧ condition.parts = parts ∧
      condition.node place = found := by
  obtain ⟨rfl, hadmissible⟩ := FilterBody.ofJson_eq_ok_iff.1 hbody
  cases body with
  | logic op children =>
      obtain ⟨rfl, -⟩ := Check.run_pure_eq_ok_iff.1 hnode
      refine ⟨.logic op parts, .logic hadmissible hparts, rfl, ?_⟩
      rw [node, hparts.length_eq]
      rfl
  | not child =>
      obtain ⟨rfl, -⟩ := Check.run_pure_eq_ok_iff.1 hnode
      obtain ⟨part, rfl⟩ := List.length_eq_one_iff.1 hparts.length_eq
      exact ⟨.not part, .not (List.forall₂_cons.1 hparts).1, rfl, rfl⟩
  | compare op key operand =>
      obtain rfl := List.forall₂_nil_right_iff.1 hparts
      obtain ⟨field, _, hfield, hrest⟩ := Check.run_bind_eq_ok_iff.1 hnode
      obtain ⟨⟨hrefers, htype⟩, -⟩ := resolveTyped_run_some_eq_ok_iff.1 hfield
      cases operand with
      | number constant =>
          obtain ⟨rfl, -⟩ := Check.run_pure_eq_ok_iff.1 hrest
          exact ⟨_, .compare hrefers htype, rfl, rfl⟩
      | _ => cases hrest
  | matching key operand =>
      obtain rfl := List.forall₂_nil_right_iff.1 hparts
      obtain ⟨field, _, hfield, hrest⟩ := Check.run_bind_eq_ok_iff.1 hnode
      obtain ⟨⟨hrefers, htype⟩, -⟩ := resolveTyped_run_some_eq_ok_iff.1 hfield
      cases operand with
      | string raw =>
          dsimp only at hrest
          split at hrest
          next pattern hpattern =>
            obtain ⟨rfl, -⟩ := Check.run_pure_eq_ok_iff.1 hrest
            exact ⟨_, .matching hrefers htype (Pattern.parse?_eq_some_iff.1 hpattern), rfl, rfl⟩
          next => cases hrest
      | _ => cases hrest

/-- Queued filters are read exactly if each of them writes a condition, and their nodes are those
of the conditions in breadth-first order. -/
theorem filterNodes_run_some_eq_ok_iff {registry : Registry} {bound : Bound} {next : Nat}
    {queue : List Json} {nodes : List FilterNode} {state : Option Bound} :
    (filterNodes registry next queue).run (some bound) = .ok (nodes, state) ↔
      (∃ conditions, List.Forall₂ (WrittenBy bound) conditions queue ∧
        nodes = breadthFirst next conditions) ∧ state = some bound := by
  induction next, queue using filterNodes.induct generalizing nodes state with
  | case1 next =>
      rw [filterNodes, Check.run_pure_eq_ok_iff]
      simp [breadthFirst]
  | case2 next filter queue violation hbody =>
      -- a filter without a body writes no condition
      rw [filterNodes_of_error hbody, Check.run_throw_eq_ok_iff, false_iff]
      intro hresult
      obtain ⟨⟨conditions, hconditions, -⟩, -⟩ := hresult
      obtain ⟨condition, _, hwritten, -, -⟩ := List.forall₂_cons_right_iff.1 hconditions
      obtain ⟨body, hfound, -⟩ := hwritten.exists_body
      cases hfound.symm.trans hbody
  | case3 next filter queue body hbody ih =>
      -- the children are read behind the queue, so what is read is split where the queue ended
      rw [filterNodes_of_ok hbody]
      simp only [Check.run_bind_eq_ok_iff, Check.run_pure_eq_ok_iff]
      constructor
      · intro hrun
        obtain ⟨found, middle, hnode, rest, last, hrest, rfl, rfl⟩ := hrun
        obtain rfl := (body.coherent_node next).keeps hnode
        obtain ⟨⟨conditions, hconditions, rfl⟩, rfl⟩ := ih.1 hrest
        obtain ⟨condition, hwritten, hparts, rfl⟩ :=
          exists_of_node hbody (List.forall₂_drop_append _ _ _ hconditions) hnode
        refine ⟨⟨condition :: conditions.take queue.length, .cons hwritten
          (List.forall₂_take_append _ _ _ hconditions), ?_⟩, rfl⟩
        have hcount := (List.forall₂_drop_append _ _ _ hconditions).length_eq
        rw [breadthFirst, hparts, hcount, List.take_append_drop]
      · intro hresult
        obtain ⟨⟨conditions, hconditions, rfl⟩, rfl⟩ := hresult
        obtain ⟨condition, conditions, hwritten, hqueue, rfl⟩ :=
          List.forall₂_cons_right_iff.1 hconditions
        obtain ⟨_, hfound, hparts, hnode⟩ := hwritten.exists_body
        cases hfound.symm.trans hbody
        refine ⟨_, _, hnode registry next, _, _,
          ih.2 ⟨⟨_, List.rel_append hqueue hparts, rfl⟩, rfl⟩, ?_, rfl⟩
        rw [breadthFirst, hparts.length_eq]

end Condition

end CampusQuery.Query
