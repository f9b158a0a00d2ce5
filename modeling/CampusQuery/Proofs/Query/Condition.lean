import CampusQuery.Query.Where
import CampusQuery.Proofs.Numeric.Positions
import CampusQuery.Proofs.Query.Patterns
import CampusQuery.Proofs.Query.References
import Mathlib.Algebra.GroupWithZero.Nat
import Mathlib.Data.List.Forall2

/-!
# Conditions on records

A condition is the tree that a filter is written from. `Condition.holds` is its
meaning, by recursion on the tree, and `Condition.WrittenBy` says which JSON
values write it when a given dataset is bound.
-/

namespace CampusQuery.Query

open Numeric

/-! ## Comparisons -/

namespace CompareOp

/-- Whether a number lies above, below or at the same place as a constant, as an operator asks. -/
def lies (op : CompareOp) (value constant : Binary64) : Bool :=
  match op with
  | .greater => value.isAbove constant
  | .less => constant.isAbove value
  | .equal => value.isLevel constant

/-- A comparison is true of the numbers that lie as it asks. -/
theorem holds_eq_lies (op : CompareOp) (value constant : Binary64) :
    op.holds value constant = op.lies value constant := by
  cases op with
  | greater => exact Binary64.lt_eq_isAbove constant value
  | less => exact Binary64.lt_eq_isAbove value constant
  | equal => exact Binary64.numEq_eq_isLevel value constant

/-- Finite numbers lie above, below or at the same place as their values do. -/
theorem lies_iff_valueUnits {value constant : Binary64} (hvalue : value.isFinite = true)
    (hconstant : constant.isFinite = true) (op : CompareOp) :
    op.lies value constant = true ↔
      match op with
      | .greater => constant.valueUnits < value.valueUnits
      | .less => value.valueUnits < constant.valueUnits
      | .equal => value.valueUnits = constant.valueUnits := by
  cases op with
  | greater => exact Binary64.isAbove_iff_valueUnits hvalue hconstant
  | less => exact Binary64.isAbove_iff_valueUnits hconstant hvalue
  | equal => exact Binary64.isLevel_iff_valueUnits hvalue hconstant

end CompareOp

/-! ## Conditions -/

/-- A condition on the records of a kind, as a tree. -/
inductive Condition where
  | logic (op : LogicOp) (parts : List Condition)
  | not (part : Condition)
  | compare (op : CompareOp) (field : Field) (constant : Binary64)
  | matching (field : Field) (pattern : Pattern)

namespace Condition

/-- The conditions directly inside a condition. -/
def parts : Condition → List Condition
  | .logic _ parts => parts
  | .not part => [part]
  | .compare .. => []
  | .matching .. => []

theorem sizeOf_lt_of_mem_parts {part condition : Condition} (hpart : part ∈ condition.parts) :
    sizeOf part < sizeOf condition := by
  cases condition with
  | logic op parts =>
      have hlt := List.sizeOf_lt_of_mem hpart
      simp only [logic.sizeOf_spec, Condition.parts] at hlt ⊢
      omega
  | not inner =>
      obtain rfl := List.mem_singleton.1 hpart
      simp only [not.sizeOf_spec]
      omega
  | compare => exact absurd hpart List.not_mem_nil
  | matching => exact absurd hpart List.not_mem_nil

/-- What passes from the conditions directly inside a condition to it is true of all. -/
theorem induction {motive : Condition → Prop}
    (hstep : ∀ condition, (∀ part ∈ condition.parts, motive part) → motive condition)
    (condition : Condition) : motive condition :=
  hstep condition fun part hpart =>
    have := sizeOf_lt_of_mem_parts hpart
    induction hstep part
termination_by condition

/-- Whether a condition is true of a record. A field that the record does not have is never
equal to, above, below or like anything. -/
def holds (record : Record) : Condition → Bool
  | .logic .and parts => parts.attach.all fun part => holds record part.1
  | .logic .or parts => parts.attach.any fun part => holds record part.1
  | .not part => !holds record part
  | .compare op field constant =>
      match record.get? field with
      | some (.number value) => op.lies value constant
      | _ => false
  | .matching field pattern =>
      match record.get? field with
      | some (.text value) => pattern.accepts value
      | _ => false
termination_by condition => condition
decreasing_by
  · exact @sizeOf_lt_of_mem_parts _ (.logic .and parts) part.2
  · exact @sizeOf_lt_of_mem_parts _ (.logic .or parts) part.2
  · exact @sizeOf_lt_of_mem_parts _ (.not part) (List.mem_singleton.2 rfl)

/-- How many conditions there are in a condition, itself included. -/
def size (condition : Condition) : Nat :=
  1 + (condition.parts.attach.map fun part => size part.1).sum
termination_by condition
decreasing_by exact sizeOf_lt_of_mem_parts part.2

theorem holds_and (record : Record) (parts : List Condition) :
    holds record (.logic .and parts) = parts.all (holds record) := by
  simp [holds]

theorem holds_or (record : Record) (parts : List Condition) :
    holds record (.logic .or parts) = parts.any (holds record) := by
  simp [holds]

theorem holds_not (record : Record) (part : Condition) :
    holds record (.not part) = !holds record part := by
  simp [holds]

/-- A condition is one more than the conditions inside it. -/
theorem size_eq (condition : Condition) : condition.size = 1 + (condition.parts.map size).sum := by
  rw [size, List.attach_map_val]

theorem holds_compare_iff_valueUnits {record : Record} {field : Field} {value constant : Binary64}
    (hget : record.get? field = some (.number value)) (hvalue : value.isFinite = true)
    (hconstant : constant.isFinite = true) (op : CompareOp) :
    (Condition.compare op field constant).holds record = true ↔
      match op with
      | .greater => constant.valueUnits < value.valueUnits
      | .less => value.valueUnits < constant.valueUnits
      | .equal => value.valueUnits = constant.valueUnits := by
  rw [holds, hget]
  exact op.lies_iff_valueUnits hvalue hconstant

/-! ## How conditions are written -/

/-- Which JSON values write a condition while a dataset is bound. -/
inductive WrittenBy (bound : Bound) : Condition → Json → Prop where
  | logic {op : LogicOp} {parts : List Condition} {items : List Json} : items ≠ [] →
      List.Forall₂ (WrittenBy bound) parts items →
      WrittenBy bound (.logic op parts) (.object [(op.key, .array items)])
  | not {part : Condition} {item : Json} : WrittenBy bound part item →
      WrittenBy bound (.not part) (.object [("NOT", item)])
  | compare {op : CompareOp} {key : String} {field : Field} {constant : JsonNumber} :
      bound.Refers key field → field.fieldType = .numeric →
      WrittenBy bound (.compare op field constant.toBinary64)
        (.object [(op.key, .object [(key, .number constant)])])
  | matching {key raw : String} {field : Field} {pattern : Pattern} :
      bound.Refers key field → field.fieldType = .text → pattern.WrittenBy raw →
      WrittenBy bound (.matching field pattern)
        (.object [("IS", .object [(key, .string raw)])])

end Condition

end CampusQuery.Query
