import CampusQuery.Proofs.Query.BooleanLaws
import CampusQuery.Proofs.Query.WorkQueue

/-!
# Evaluating filters from the root

A node asks for the truth of its children only where it needs it, each of them by its place. In a
well-formed tree the children stand later, so the descent comes to an end, every place asked for is
one of the tree, and the answer is the truth found in one pass over the nodes.
-/

namespace CampusQuery.Query

namespace FilterNode

/-- The truth of a node on a record, as far as its children answer. A conjunction asks until one of
them is false, a disjunction until one is true. -/
def settle? (ask : Nat → Option Bool) (record : Record) : FilterNode → Option Bool
  | .logic .and children => children.allM ask
  | .logic .or children => children.anyM ask
  | .not child => (ask child).map fun truth => !truth
  | .compare op field constant =>
      some ((FilterNode.compare op field constant).holds (fun _ => false) record)
  | .matching field pattern =>
      some ((FilterNode.matching field pattern).holds (fun _ => false) record)

variable {record : Record} {node : FilterNode}

/-- Only the truth of its children matters to a node. -/
theorem holds_congr {first second : Nat → Bool}
    (hsame : ∀ child ∈ node.children, first child = second child) :
    node.holds first record = node.holds second record := by
  cases node with
  | logic op children =>
      have hmap : children.map first = children.map second := List.map_congr_left hsame
      cases op with
      | and => simpa [holds, List.all_map] using congrArg (List.all · id) hmap
      | or => simpa [holds, List.any_map] using congrArg (List.any · id) hmap
  | not child => rw [holds, holds, hsame child (List.mem_singleton_self child)]
  | compare op field constant => rfl
  | matching field pattern => rfl

theorem settle?_eq_some {ask : Nat → Option Bool} {truth : Nat → Bool}
    (hask : ∀ child ∈ node.children, ask child = some (truth child)) :
    node.settle? ask record = some (node.holds truth record) := by
  cases node with
  | logic op children =>
      change ∀ child ∈ children, ask child = some (truth child) at hask
      induction children with
      | nil => cases op <;> rfl
      | cons child rest ih =>
          obtain ⟨hchild, hrest⟩ := List.forall_mem_cons.1 hask
          have hlater := ih hrest
          cases op with
          | and =>
              rw [settle?, holds] at hlater ⊢
              rw [List.allM, hchild, List.all_cons]
              cases truth child with
              | true => exact hlater
              | false => rfl
          | or =>
              rw [settle?, holds] at hlater ⊢
              rw [List.anyM, hchild, List.any_cons]
              cases truth child with
              | true => rfl
              | false => exact hlater
  | not child =>
      rw [settle?, hask child (List.mem_singleton_self child)]
      rfl
  | compare op field constant => rfl
  | matching field pattern => rfl

end FilterNode

namespace FilterTree

/-- The truth of the node at a place on a record. There is none where the place is not one of the
tree, or where the descent would be deeper than allowed. -/
def descend? (tree : FilterTree) (record : Record) : (depth place : Nat) → Option Bool
  | 0, _ => none
  | depth + 1, place => do
      let node ← tree.nodes[place]?
      node.settle? (tree.descend? record depth) record

/-- The truth at a place is that of the node there, given the truth at the later places. -/
theorem getD_truths {record : Record} {nodes : List FilterNode} {start place : Nat}
    {node : FilterNode} (hnode : nodes[place]? = some node)
    (hlater : ∀ child ∈ node.children, start + place < child) :
    (truths record start nodes).getD place false =
      node.holds (fun child => (truths record start nodes).getD (child - start) false) record := by
  induction nodes generalizing start place with
  | nil => exact nomatch hnode
  | cons first rest ih =>
      -- seen from behind the first node, every child stands one place earlier
      have hbehind : ∀ child ∈ node.children, child - start = child - (start + 1) + 1 := by
        intro child hchild
        have hlt := hlater child hchild
        omega
      rw [truths]
      cases place with
      | zero =>
          obtain rfl := Option.some.inj hnode
          refine FilterNode.holds_congr fun child hchild => ?_
          rw [hbehind child hchild, List.getD_cons_succ]
      | succ place =>
          rw [List.getD_cons_succ, ih hnode fun child hchild => by
            have hlt := hlater child hchild
            omega]
          refine FilterNode.holds_congr fun child hchild => ?_
          rw [hbehind child hchild, List.getD_cons_succ]

/-- A descent that may be as deep as there are places from its start on finds the truth there. -/
theorem WellFormed.descend?_eq_some {tree : FilterTree} (hformed : tree.WellFormed)
    (record : Record) {depth place : Nat} (hplace : place < tree.nodes.length)
    (hdepth : tree.nodes.length - place ≤ depth) :
    tree.descend? record depth place = some ((truths record 0 tree.nodes).getD place false) := by
  -- on the depth: a child stands later, so there are fewer places from it on
  induction depth generalizing place with
  | zero => omega
  | succ depth ih =>
      have hnode : tree.nodes[place]? = some tree.nodes[place] := List.getElem?_eq_getElem hplace
      have hchildren := hformed.children_later place _ hnode
      rw [getD_truths hnode fun child hchild => by
        rw [Nat.zero_add]
        exact (hchildren child hchild).1]
      rw [descend?, hnode]
      refine FilterNode.settle?_eq_some fun child hchild => ?_
      obtain ⟨hlater, hinside⟩ := hchildren child hchild
      exact ih hinside (by omega)

theorem WellFormed.descend?_root {tree : FilterTree} (hformed : tree.WellFormed) (record : Record)
    {depth : Nat} (hdepth : tree.nodes.length ≤ depth) :
    tree.descend? record depth 0 = some (tree.holds record) := by
  rw [hformed.descend?_eq_some record (List.length_pos_iff.2 hformed.has_root) hdepth, holds,
    List.headD_eq_head?_getD, List.head?_eq_getElem?, List.getD_eq_getElem?_getD]

end FilterTree

/-- A filter that is not the empty object becomes the nodes that its turns list. -/
theorem filterOf_run_eq_ok {registry : Registry} {value : Json} {bound after : Option Bound}
    {found : Option FilterTree} (hvalue : value ≠ .object [])
    (hrun : (filterOf registry value).run bound = .ok (found, after)) :
    ∃ tree, found = some tree ∧
      (filterNodes registry 1 [value]).run bound = .ok (tree.nodes, after) := by
  obtain ⟨entries, now, hentries, hrest⟩ := Check.run_bind_eq_ok_iff.1 hrun
  obtain ⟨hobject, rfl⟩ := Check.run_lift_eq_ok_iff.1 hentries
  obtain rfl := Check.asObject_eq_ok_iff.1 hobject
  have hfilled : entries.isEmpty = false := by
    rw [List.isEmpty_eq_false_iff]
    rintro rfl
    exact hvalue rfl
  rw [hfilled, if_neg Bool.false_ne_true] at hrest
  obtain ⟨nodes, _, hnodes, hpure⟩ := Check.run_bind_eq_ok_iff.1 hrest
  obtain ⟨rfl, rfl⟩ := Check.run_pure_eq_ok_iff.1 hpure
  exact ⟨⟨nodes⟩, rfl, hnodes⟩

/-- Every filter is listed in finitely many turns. The place of each filter taken is the number of
nodes before it, and a filter that is accepted becomes a tree in breadth-first order, whose
evaluation from the root comes to an end inside the tree. -/
theorem filters_are_listed_breadth_first (registry : Registry) (value : Json)
    (bound : Option Bound) :
    (WellFounded fun after before => Turns registry before after) ∧
    (∀ work now, Relation.ReflTransGen (Turns registry) (Work.start value, bound) (work, now) →
      work.Sound value ∧
        ∀ place filter rest, work.queue = (place, filter) :: rest → place = work.nodes.length) ∧
    (∃ last, Relation.ReflTransGen (Turns registry) (Work.start value, bound) last ∧
      ((last.1.queue = [] ∧
          (filterNodes registry 1 [value]).run bound = .ok (last.1.nodes, last.2)) ∨
        ∃ violation, (last.1.turn registry).run last.2 = .error violation ∧
          (filterNodes registry 1 [value]).run bound = .error violation)) ∧
    ∀ found after, value ≠ .object [] →
      (filterOf registry value).run bound = .ok (found, after) →
      ∃ tree, found = some tree ∧ tree.BreadthFirst value ∧
        ∀ record depth, tree.nodes.length ≤ depth →
          tree.descend? record depth 0 = some (tree.holds record) := by
  have hlisted : (Work.start value).listed registry = filterNodes registry 1 [value] := by
    rw [Work.listed]
    exact bind_pure _
  obtain ⟨last, hturns, hlast⟩ := exists_end registry (Work.start value, bound)
  rw [hlisted] at hlast
  refine ⟨wellFounded_turns registry, ?_, ⟨last, hturns, hlast⟩, ?_⟩
  · intro work now hreached
    have hsound := sound_of_turns hreached
    exact ⟨hsound, fun place filter rest hqueue => hsound.place_eq hqueue⟩
  · intro found after hvalue hrun
    obtain ⟨tree, rfl, hnodes⟩ := filterOf_run_eq_ok hvalue hrun
    have htree : tree.BreadthFirst value := by
      rcases hlast with hlast | hlast
      · obtain ⟨hqueue, hrun⟩ := hlast
        obtain ⟨hsame, -⟩ := Prod.ext_iff.1 (Except.ok.inj (hrun.symm.trans hnodes))
        have hbreadth := (sound_of_turns hturns).breadthFirst hqueue
        rwa [show last.1.nodes = tree.nodes from hsame] at hbreadth
      · obtain ⟨violation, -, hrun⟩ := hlast
        exact nomatch hrun.symm.trans hnodes
    exact ⟨tree, rfl, htree, fun record depth hdepth =>
      htree.well_formed.descend?_root record hdepth⟩

/-- The sections that are above ninety or of another department, asked for by negations. -/
def aboveOrElsewhere : Json := negated (joined .and [negated aboveNinety, inCpsc])

theorem nested_negations_are_listed :
    ∃ tree, (filterOf (storeOf [.ofNat 90]).registry aboveOrElsewhere).run
        (some ⟨"courses", .sections⟩) = .ok (some tree, some ⟨"courses", .sections⟩) ∧
      tree.BreadthFirst aboveOrElsewhere ∧
      tree.nodes.map FilterNode.children = [[1], [2, 3], [4], [], []] ∧
      ∀ record, tree.descend? record 5 0 = some (tree.holds record) := by
  have havg : Bound.Refers ⟨"courses", .sections⟩ "courses_avg" (.section .avg) :=
    ⟨rfl, by decide, by decide, by decide⟩
  have hdept : Bound.Refers ⟨"courses", .sections⟩ "courses_dept" (.section .dept) :=
    ⟨rfl, by decide, by decide, by decide⟩
  have habove : Condition.WrittenBy ⟨"courses", .sections⟩ _ aboveNinety :=
    @Condition.WrittenBy.compare _ .greater _ _ _ havg rfl
  have hcpsc : Condition.WrittenBy ⟨"courses", .sections⟩
      (.matching (.section .dept) (.exact "cpsc")) inCpsc :=
    .matching hdept rfl (.exact (by decide))
  have hboth : Condition.WrittenBy ⟨"courses", .sections⟩ _
      (joined .and [negated aboveNinety, inCpsc]) :=
    .logic (List.cons_ne_nil _ _) (.cons (.not habove) (.cons hcpsc .nil))
  have hwhere : FilterWrittenBy ⟨"courses", .sections⟩ _ aboveOrElsewhere :=
    .condition (.not hboth)
  have hrun := (@filterOf_run_some_eq_ok_iff (storeOf [.ofNat 90]).registry _ _ _ _).2 ⟨hwhere, rfl⟩
  have hfilled : aboveOrElsewhere ≠ .object [] := by
    simp [aboveOrElsewhere, negated]
  obtain ⟨tree, hsame, htree, hdescent⟩ :=
    (filters_are_listed_breadth_first (storeOf [.ofNat 90]).registry _ _).2.2.2 _ _ hfilled hrun
  obtain rfl := Option.some.inj hsame
  refine ⟨_, hrun, htree, ?_, fun record => hdescent record 5 ?_⟩
  · simp [Condition.tree, Condition.breadthFirst, Condition.node, Condition.parts,
      FilterNode.children, List.range']
  · simp [Condition.tree, Condition.breadthFirst, Condition.parts]

end CampusQuery.Query
