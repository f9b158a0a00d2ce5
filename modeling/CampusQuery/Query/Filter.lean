import CampusQuery.Query.Pattern
import CampusQuery.Record.Basic

/-!
# Filters

A filter is a flat list of nodes. The first node is the root and every child
stands after its parent, so the truth of all nodes on a record is found in one
pass from the last node to the first.
-/

namespace CampusQuery.Query

open Numeric

/-- How the children of a node are joined. -/
inductive LogicOp where
  | and
  | or
deriving DecidableEq, Repr

/-- How a number is compared with a constant. -/
inductive CompareOp where
  | greater
  | less
  | equal
deriving DecidableEq, Repr

namespace LogicOp

def key : LogicOp → String
  | .and => "AND"
  | .or => "OR"

def ofKey? (key : String) : Option LogicOp := [LogicOp.and, .or].find? fun op => op.key = key

end LogicOp

namespace CompareOp

def key : CompareOp → String
  | .greater => "GT"
  | .less => "LT"
  | .equal => "EQ"

def ofKey? (key : String) : Option CompareOp :=
  [CompareOp.greater, .less, .equal].find? fun op => op.key = key

/-- Compare a record's number with a constant. -/
def holds (op : CompareOp) (value constant : Binary64) : Bool :=
  match op with
  | .greater => constant.lt value
  | .less => value.lt constant
  | .equal => value.numEq constant

end CompareOp

/-- A node of a filter; children are given by their places in the list. -/
inductive FilterNode where
  | logic (op : LogicOp) (children : List Nat)
  | not (child : Nat)
  | compare (op : CompareOp) (field : Field) (constant : Binary64)
  | matching (field : Field) (pattern : Pattern)
deriving DecidableEq, Repr

namespace FilterNode

/-- The places of the children. -/
def children : FilterNode → List Nat
  | .logic _ children => children
  | .not child => [child]
  | .compare .. => []
  | .matching .. => []

/-- The truth of a node on a record, given the truth of the nodes by their places. -/
def holds (truth : Nat → Bool) (record : Record) : FilterNode → Bool
  | .logic .and children => children.all truth
  | .logic .or children => children.any truth
  | .not child => !truth child
  | .compare op field constant =>
      match (record.get? field).bind Value.number? with
      | some value => op.holds value constant
      | none => false
  | .matching field pattern =>
      match (record.get? field).bind Value.text? with
      | some value => pattern.accepts value
      | none => false

end FilterNode

/-- A filter as its nodes, the root first. -/
structure FilterTree where
  nodes : List FilterNode
deriving DecidableEq, Repr

namespace FilterTree

/-- The truth of nodes on a record, the first of them at place `start`. -/
def truths (record : Record) (start : Nat) : List FilterNode → List Bool
  | [] => []
  | node :: rest =>
      let later := truths record (start + 1) rest
      node.holds (fun place => later.getD (place - (start + 1)) false) record :: later

/-- The truth of a filter on a record is that of its root. -/
def holds (tree : FilterTree) (record : Record) : Bool :=
  (truths record 0 tree.nodes).headD false

/-- What holds of every filter that was built from a document. -/
structure WellFormed (tree : FilterTree) : Prop where
  has_root : tree.nodes ≠ []
  children_later : ∀ place node, tree.nodes[place]? = some node →
    ∀ child ∈ node.children, place < child ∧ child < tree.nodes.length
  some_children : ∀ op children, FilterNode.logic op children ∈ tree.nodes → children ≠ []

end FilterTree

end CampusQuery.Query
