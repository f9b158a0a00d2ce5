import CampusQuery.Proofs.Query.Arena
import Mathlib.Data.List.Nodup
import Mathlib.Logic.Relation

/-!
# The queue of a filter

A filter is listed by turns. Each takes the filter at the front of a queue, whose place is known
since its parent was taken, and queues the filters inside it under the next free places. The turns
end, and what they listed is a tree in breadth-first order.
-/

namespace CampusQuery.Query

/-! ## Filters inside filters -/

/-- The filters directly inside a filter. -/
def innerFilters : Json → List Json
  | .object [(key, .array items)] => if key = "AND" ∨ key = "OR" then items else []
  | .object [(key, .object entries)] => if key = "NOT" then [.object entries] else []
  | _ => []

theorem sizeOf_lt_of_mem_innerFilters {inner filter : Json} (hinner : inner ∈ innerFilters filter) :
    sizeOf inner < sizeOf filter := by
  unfold innerFilters at hinner
  split at hinner
  next key items =>
    split at hinner
    · have hlt := List.sizeOf_lt_of_mem hinner
      simp only [Json.object.sizeOf_spec, Json.array.sizeOf_spec, List.cons.sizeOf_spec,
        Prod.mk.sizeOf_spec]
      omega
    · exact nomatch hinner
  next key entries =>
    split at hinner
    · rw [List.mem_singleton.1 hinner]
      simp only [Json.object.sizeOf_spec, List.cons.sizeOf_spec, Prod.mk.sizeOf_spec]
      omega
    · exact nomatch hinner
  next => exact nomatch hinner

/-- How many filters there are in a filter, itself included. -/
def filterCount (filter : Json) : Nat :=
  1 + ((innerFilters filter).attach.map fun inner => filterCount inner.1).sum
termination_by sizeOf filter
decreasing_by exact sizeOf_lt_of_mem_innerFilters inner.2

theorem filterCount_eq (filter : Json) :
    filterCount filter = 1 + ((innerFilters filter).map filterCount).sum := by
  rw [filterCount, List.attach_map_val]

theorem FilterBody.innerFilters_eq {filter : Json} {body : FilterBody}
    (hbody : FilterBody.ofJson filter = .ok body) : innerFilters filter = body.children := by
  obtain ⟨rfl, hadmissible⟩ := FilterBody.ofJson_eq_ok_iff.1 hbody
  cases body with
  | logic op children => cases op <;> rfl
  | not child =>
      obtain ⟨entries, rfl⟩ := hadmissible
      rfl
  | compare op key operand => cases op <;> rfl
  | matching key operand => rfl

/-- The children of a node are the next places, one for each filter inside its own. -/
theorem FilterBody.cases_of_node {registry : Registry} {body : FilterBody} {place : Nat}
    {node : FilterNode} {before after : Option Bound}
    (hnode : (body.node registry place).run before = .ok (node, after)) :
    node.children = List.range' place body.children.length ∧
      ∀ op places, node = .logic op places → ∃ children, body = .logic op children := by
  cases body with
  | logic op children =>
      obtain ⟨rfl, -⟩ := Check.run_pure_eq_ok_iff.1 hnode
      refine ⟨rfl, fun op places hsame => ?_⟩
      cases hsame
      exact ⟨children, rfl⟩
  | not child =>
      obtain ⟨rfl, -⟩ := Check.run_pure_eq_ok_iff.1 hnode
      exact ⟨rfl, nofun⟩
  | compare op key operand =>
      obtain ⟨field, _, -, hrest⟩ := Check.run_bind_eq_ok_iff.1 hnode
      cases operand with
      | number constant =>
          obtain ⟨rfl, -⟩ := Check.run_pure_eq_ok_iff.1 hrest
          exact ⟨rfl, nofun⟩
      | _ => cases hrest
  | matching key operand =>
      obtain ⟨field, _, -, hrest⟩ := Check.run_bind_eq_ok_iff.1 hnode
      cases operand with
      | string raw =>
          dsimp only at hrest
          split at hrest
          · obtain ⟨rfl, -⟩ := Check.run_pure_eq_ok_iff.1 hrest
            exact ⟨rfl, nofun⟩
          · cases hrest
      | _ => cases hrest

/-! ## Turns -/

/-- What is known between turns: the nodes so far, the queued filters with their places, and the
first place that no filter has. -/
structure Work where
  nodes : List FilterNode
  queue : List (Nat × Json)
  next : Nat

namespace Work

def start (filter : Json) : Work := ⟨[], [(0, filter)], 1⟩

/-- A node is listed, and the filters inside its own are queued under the next places. -/
def list (node : FilterNode) (rest : List (Nat × Json)) (children : List Json) (work : Work) :
    Work where
  nodes := work.nodes ++ [node]
  queue := rest ++ (List.range' work.next children.length).zip children
  next := work.next + children.length

/-- The turn of the filter at the front. On an empty queue there is none. -/
def turn (registry : Registry) (work : Work) : Check (Option Work) :=
  match work.queue with
  | [] => pure none
  | (_, filter) :: rest => do
      let body ← FilterBody.ofJson filter
      let node ← body.node registry work.next
      pure (some (work.list node rest body.children))

/-- The nodes that all turns list that are still to come. -/
def listed (registry : Registry) (work : Work) : Check (List FilterNode) := do
  let later ← filterNodes registry work.next (work.queue.map Prod.snd)
  pure (work.nodes ++ later)

variable {registry : Registry} {work : Work}

section List

variable {node : FilterNode} {rest : List (Nat × Json)} {children : List Json}

theorem map_fst_list : (work.list node rest children).queue.map Prod.fst =
    rest.map Prod.fst ++ List.range' work.next children.length := by
  rw [list, List.map_append, List.map_fst_zip List.length_range'.le]

theorem map_snd_list : (work.list node rest children).queue.map Prod.snd =
    rest.map Prod.snd ++ children := by
  rw [list, List.map_append, List.map_snd_zip List.length_range'.ge]

theorem length_queue_list :
    (work.list node rest children).queue.length = rest.length + children.length := by
  rw [list, List.length_append, List.length_zip, List.length_range', Nat.min_self]

theorem length_nodes_list :
    (work.list node rest children).nodes.length = work.nodes.length + 1 := by
  rw [list, List.length_append, List.length_singleton]

/-- The new node stands at the end. -/
theorem getElem?_nodes_list {place : Nat} {found : FilterNode}
    (hfound : (work.list node rest children).nodes[place]? = some found) :
    work.nodes[place]? = some found ∨ place = work.nodes.length ∧ found = node := by
  rw [list, List.getElem?_append] at hfound
  split at hfound
  next => exact .inl hfound
  next hnew =>
    rw [List.getElem?_singleton, Option.ite_none_right_eq_some, Option.some.injEq] at hfound
    exact .inr ⟨by omega, hfound.2.symm⟩

end List

theorem queue_of_turn_none {before after : Option Bound}
    (hturn : (work.turn registry).run before = .ok (none, after)) :
    work.queue = [] ∧ after = before := by
  unfold turn at hturn
  split at hturn
  next hqueue => exact ⟨hqueue, (Check.run_pure_eq_ok_iff.1 hturn).2⟩
  next =>
    simp only [Check.run_bind_eq_ok_iff, Check.run_pure_eq_ok_iff, reduceCtorEq, false_and,
      and_false, exists_false] at hturn

/-- What is still to be listed is what one turn leaves to be listed. -/
theorem listed_eq (registry : Registry) (work : Work) :
    work.listed registry = (do
      match ← work.turn registry with
      | some later => later.listed registry
      | none => pure work.nodes) := by
  unfold listed turn
  cases hqueue : work.queue with
  | nil => simp [filterNodes]
  | cons entry rest =>
      obtain ⟨place, filter⟩ := entry
      dsimp only
      rw [List.map_cons]
      cases hbody : FilterBody.ofJson filter with
      | error violation =>
          rw [filterNodes_of_error hbody]
          rfl
      | ok body =>
          rw [filterNodes_of_ok hbody]
          have hlift : (liftM (Except.ok body : Except Violation FilterBody) : Check FilterBody) =
            pure body := rfl
          simp only [hlift, bind_assoc, pure_bind]
          refine bind_congr fun node => ?_
          rw [map_snd_list]
          refine bind_congr fun later => ?_
          rw [list, List.append_assoc, List.singleton_append]

end Work

/-- A turn leads from one work to another, while a dataset may get bound. -/
def Turns (registry : Registry) (before after : Work × Option Bound) : Prop :=
  (before.1.turn registry).run before.2 = .ok (some after.1, after.2)

variable {registry : Registry} {before after : Work × Option Bound}

theorem Turns.exists_list (hturn : Turns registry before after) :
    ∃ place filter rest body node, before.1.queue = (place, filter) :: rest ∧
      FilterBody.ofJson filter = .ok body ∧
      (body.node registry before.1.next).run before.2 = .ok (node, after.2) ∧
      after.1 = before.1.list node rest body.children := by
  unfold Turns Work.turn at hturn
  split at hturn
  next => exact nomatch hturn
  next place filter rest hqueue =>
    simp only [Check.run_bind_eq_ok_iff, Check.run_lift_eq_ok_iff,
      Check.run_pure_eq_ok_iff] at hturn
    obtain ⟨body, _, ⟨hbody, rfl⟩, node, _, hnode, hafter, rfl⟩ := hturn
    exact ⟨place, filter, rest, body, node, hqueue, hbody, hnode, Option.some.inj hafter⟩

/-- Turns come to an end, since the filters that one queues are smaller than the one it takes. -/
theorem wellFounded_turns (registry : Registry) :
    WellFounded fun after before => Turns registry before after := by
  refine Subrelation.wf (fun {after before} hturn => ?_)
    (measure fun state : Work × Option Bound =>
      FilterBody.totalSize (state.1.queue.map Prod.snd)).wf
  obtain ⟨place, filter, rest, body, node, hqueue, hbody, -, hafter⟩ := hturn.exists_list
  have hlt := FilterBody.totalSize_children_lt hbody
  change FilterBody.totalSize _ < FilterBody.totalSize _
  rw [hafter, Work.map_snd_list, hqueue, FilterBody.totalSize_append, List.map_cons,
    FilterBody.totalSize]
  change _ < sizeOf filter + _
  omega

/-- Turns go on until the queue is empty or a filter is refused, and what is listed then is what the
filters in the queue become. -/
theorem exists_end (registry : Registry) (first : Work × Option Bound) :
    ∃ last, Relation.ReflTransGen (Turns registry) first last ∧
      ((last.1.queue = [] ∧ (first.1.listed registry).run first.2 = .ok (last.1.nodes, last.2)) ∨
        ∃ violation, (last.1.turn registry).run last.2 = .error violation ∧
          (first.1.listed registry).run first.2 = .error violation) := by
  induction first using (wellFounded_turns registry).induction with
  | _ first ih =>
      rw [Work.listed_eq, StateT.run_bind]
      cases hturn : (first.1.turn registry).run first.2 with
      | error violation => exact ⟨first, .refl, .inr ⟨violation, hturn, rfl⟩⟩
      | ok result =>
          obtain ⟨_ | later, state⟩ := result
          · obtain ⟨hqueue, rfl⟩ := Work.queue_of_turn_none hturn
            exact ⟨first, .refl, .inl ⟨hqueue, rfl⟩⟩
          · have hfirst : Turns registry first (later, state) := hturn
            obtain ⟨last, hturns, hends⟩ := ih (later, state) hfirst
            exact ⟨last, .head hfirst hturns, hends⟩

/-! ## What turns keep -/

/-- What holds between turns on a filter. The queued filters have the places behind the nodes, all
places but the first are children of one node each, every child stands behind its parent, and no
filter is lost. -/
structure Work.Sound (filter : Json) (work : Work) : Prop where
  places : work.queue.map Prod.fst = List.range' work.nodes.length work.queue.length
  next_eq : work.next = work.nodes.length + work.queue.length
  pos : 0 < work.next
  children : work.nodes.flatMap FilterNode.children = List.range' 1 (work.next - 1)
  later : ∀ place node, work.nodes[place]? = some node → ∀ child ∈ node.children,
    place < child ∧ child < work.next
  filled : ∀ op children, FilterNode.logic op children ∈ work.nodes → children ≠ []
  counted : work.nodes.length + ((work.queue.map Prod.snd).map filterCount).sum =
    filterCount filter

namespace Work

theorem sound_start (filter : Json) : (start filter).Sound filter where
  places := rfl
  next_eq := rfl
  pos := Nat.one_pos
  children := rfl
  later := by simp [start]
  filled := by simp [start]
  counted := by simp [start]

theorem Sound.list {filter front : Json} {work : Work} (hsound : work.Sound filter) {place : Nat}
    {rest : List (Nat × Json)} (hqueue : work.queue = (place, front) :: rest) {node : FilterNode}
    {children : List Json} (hcount : filterCount front = 1 + (children.map filterCount).sum)
    (hnode : node.children = List.range' work.next children.length)
    (hfilled : ∀ op places, node = .logic op places → places ≠ []) :
    (work.list node rest children).Sound filter := by
  obtain ⟨hplaces, hnext, hpos, hchildren, hlater, hknown, hcounted⟩ := hsound
  rw [hqueue, List.map_cons, List.length_cons, List.range'_succ, List.cons.injEq] at hplaces
  rw [hqueue, List.length_cons] at hnext
  rw [hqueue, List.map_cons, List.map_cons, List.sum_cons] at hcounted
  refine ⟨?_, ?_, ?_, ?_, ?_, ?_, ?_⟩
  · rw [map_fst_list, length_queue_list, length_nodes_list, hplaces.2, ← List.range'_append_1]
    congr 2
    omega
  · rw [length_queue_list, length_nodes_list]
    change work.next + children.length = _
    omega
  · exact Nat.add_pos_left hpos _
  · change (work.nodes ++ [node]).flatMap FilterNode.children =
      List.range' 1 (work.next + children.length - 1)
    rw [List.flatMap_append, List.flatMap_singleton, hchildren, hnode,
      show work.next + children.length - 1 = (work.next - 1) + children.length by omega,
      ← List.range'_append_1]
    congr 2
    omega
  · intro place found hfound child hchild
    change child ∈ found.children at hchild
    change place < child ∧ child < work.next + children.length
    rcases getElem?_nodes_list hfound with hold | ⟨rfl, rfl⟩
    · obtain ⟨hbehind, hlt⟩ := hlater place found hold child hchild
      omega
    · -- the children of the new node are the places from `next` on
      rw [hnode, List.mem_range'_1] at hchild
      omega
  · intro op places hmem
    rcases List.mem_append.1 hmem with hold | hnew
    · exact hknown op places hold
    · exact hfilled op places (List.mem_singleton.1 hnew).symm
  · rw [map_snd_list, length_nodes_list, List.map_append, List.sum_append]
    dsimp only at hcounted
    omega

end Work

theorem Turns.sound {filter : Json} (hturn : Turns registry before after)
    (hsound : before.1.Sound filter) : after.1.Sound filter := by
  obtain ⟨place, front, rest, body, node, hqueue, hbody, hnode, hafter⟩ := hturn.exists_list
  obtain ⟨hchildren, hlogic⟩ := FilterBody.cases_of_node hnode
  have hcount : filterCount front = 1 + (body.children.map filterCount).sum := by
    rw [filterCount_eq, FilterBody.innerFilters_eq hbody]
  rw [hafter]
  refine hsound.list hqueue hcount hchildren fun op places hsame => ?_
  -- an empty array was refused, so there is a child
  obtain ⟨children, rfl⟩ := hlogic op places hsame
  obtain ⟨-, hfilled : children ≠ []⟩ := FilterBody.ofJson_eq_ok_iff.1 hbody
  rw [hsame] at hchildren
  rw [show places = _ from hchildren, ne_eq, List.range'_eq_nil_iff, List.length_eq_zero_iff]
  exact hfilled

theorem sound_of_turns {filter : Json} {bound : Option Bound} {state : Work × Option Bound}
    (hturns : Relation.ReflTransGen (Turns registry) (Work.start filter, bound) state) :
    state.1.Sound filter := by
  induction hturns with
  | refl => exact Work.sound_start filter
  | tail _ hturn ih => exact hturn.sound ih

theorem Work.Sound.place_eq {filter front : Json} {work : Work} (hsound : work.Sound filter)
    {place : Nat} {rest : List (Nat × Json)} (hqueue : work.queue = (place, front) :: rest) :
    place = work.nodes.length := by
  have hplaces := hsound.places
  rw [hqueue, List.map_cons, List.length_cons, List.range'_succ, List.cons.injEq] at hplaces
  exact hplaces.1

/-! ## Trees in breadth-first order -/

/-- A filter as a tree in breadth-first order. There is one node for every filter inside it, and the
children of all nodes, one after the other, are all places but the first. -/
structure FilterTree.BreadthFirst (filter : Json) (tree : FilterTree) : Prop where
  counted : tree.nodes.length = filterCount filter
  in_order : tree.nodes.flatMap FilterNode.children = List.range' 1 (tree.nodes.length - 1)
  one_parent : ∀ child, 0 < child → child < tree.nodes.length →
    ∃! place : Nat, ∃ node : FilterNode, tree.nodes[place]? = some node ∧ child ∈ node.children
  well_formed : tree.WellFormed

/-- Lists that make up a list without duplicates have nothing in common. -/
theorem existsUnique_of_nodup_flatMap {α β : Type} {f : α → List β} {items : List α}
    (hnodup : (items.flatMap f).Nodup) {b : β} (hb : b ∈ items.flatMap f) :
    ∃! i : Nat, ∃ a, items[i]? = some a ∧ b ∈ f a := by
  have hapart : ∀ {i j : Nat} {a c : α}, items[i]? = some a → items[j]? = some c → i < j →
      List.Disjoint (f a) (f c) := by
    intro i j a c hi hj hlt
    obtain ⟨hleft, rfl⟩ := List.getElem?_eq_some_iff.1 hi
    obtain ⟨hright, rfl⟩ := List.getElem?_eq_some_iff.1 hj
    exact List.pairwise_iff_getElem.1 (List.nodup_flatMap.1 hnodup).2 i j hleft hright hlt
  obtain ⟨a, ha, hmem⟩ := List.mem_flatMap.1 hb
  obtain ⟨i, hi⟩ := List.mem_iff_getElem?.1 ha
  refine ⟨i, ⟨a, hi, hmem⟩, ?_⟩
  rintro j ⟨c, hj, hother⟩
  rcases Nat.lt_trichotomy i j with hlt | rfl | hlt
  · exact absurd hother (hapart hi hj hlt hmem)
  · rfl
  · exact absurd hmem (hapart hj hi hlt hother)

theorem Work.Sound.breadthFirst {filter : Json} {work : Work} (hsound : work.Sound filter)
    (hqueue : work.queue = []) : FilterTree.BreadthFirst filter ⟨work.nodes⟩ := by
  have hnext : work.next = work.nodes.length := by
    rw [hsound.next_eq, hqueue]
    rfl
  have hpos := hsound.pos
  have hchildren := hsound.children
  rw [hnext] at hpos hchildren
  refine ⟨?_, hchildren, ?_, ?_, ?_, hsound.filled⟩
  · have hcounted := hsound.counted
    rw [hqueue] at hcounted
    simpa using hcounted
  · intro child hfirst (hlast : child < work.nodes.length)
    refine existsUnique_of_nodup_flatMap (hchildren ▸ List.nodup_range') ?_
    rw [hchildren, List.mem_range'_1]
    omega
  · exact List.ne_nil_of_length_pos hpos
  · intro place node hnode child hchild
    exact hnext ▸ hsound.later place node hnode child hchild

end CampusQuery.Query
