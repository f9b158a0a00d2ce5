import CampusQuery.Query.Document
import CampusQuery.Query.Reference

/-!
# From `WHERE` to a filter

Filter bodies are taken from a queue. A body becomes one node, and its children
get the next free places while they join the end of the queue, so the nodes come
out in breadth-first order.
-/

namespace CampusQuery.Query

/-- A filter body split into its parts, its names not yet resolved. -/
inductive FilterBody where
  | logic (op : LogicOp) (children : List Json)
  | not (child : Json)
  | compare (op : CompareOp) (key : String) (operand : Json)
  | matching (key : String) (operand : Json)

namespace FilterBody

/-- Split the body of a filter key. -/
def ofEntry (key : String) (value : Json) : Except Violation FilterBody :=
  match LogicOp.ofKey? key with
  | some op => (asItems (.logic op) value).map (.logic op)
  | none =>
      match CompareOp.ofKey? key with
      | some op => (asEntry (.compare op) value).map fun entry => .compare op entry.1 entry.2
      | none =>
          if key = "NOT" then (asObject .not value).map fun _ => .not value
          else if key = "IS" then
            (asEntry .is value).map fun entry => .matching entry.1 entry.2
          else .error (.unknownFilter key)

/-- Split a filter. -/
def ofJson (filter : Json) : Except Violation FilterBody := do
  let (key, value) ← asEntry .filter filter
  ofEntry key value

/-- The filters inside a filter. -/
def children : FilterBody → List Json
  | .logic _ children => children
  | .not child => [child]
  | .compare .. => []
  | .matching .. => []

/-- The node of a body whose children stand from a place on. -/
def node (registry : Registry) (place : Nat) : FilterBody → Check FilterNode
  | .logic op children => pure (.logic op (List.range' place children.length))
  | .not _ => pure (.not place)
  | .compare op key operand => do
      let field ← resolveTyped registry key .numeric (.compare op)
      match operand with
      | .number constant => pure (.compare op field constant.toBinary64)
      | _ => throw (.operandNotNumber op)
  | .matching key operand => do
      let field ← resolveTyped registry key .text .is
      match operand with
      | .string raw =>
          match Pattern.parse? raw with
          | some pattern => pure (.matching field pattern)
          | none => throw (.innerWildcard raw)
      | _ => throw .operandNotText

/-- The size of filters together. -/
noncomputable def totalSize : List Json → Nat
  | [] => 0
  | filter :: rest => sizeOf filter + totalSize rest

theorem totalSize_append (first second : List Json) :
    totalSize (first ++ second) = totalSize first + totalSize second := by
  induction first with
  | nil => simp [totalSize]
  | cons filter rest ih => simp only [List.cons_append, totalSize, ih]; omega

private theorem totalSize_lt (items : List Json) : totalSize items < sizeOf items := by
  induction items with
  | nil => simp [totalSize]
  | cons item rest ih =>
      simp only [totalSize, List.cons.sizeOf_spec]
      omega

private theorem ok_of_map_ok {α β ε : Type} {f : α → β} {result : Except ε α} {b : β}
    (hmap : result.map f = .ok b) : ∃ a, result = .ok a ∧ f a = b := by
  cases result with
  | error e => simp [Except.map] at hmap
  | ok a => exact ⟨a, rfl, by simpa [Except.map] using hmap⟩

private theorem asItems_eq_ok {part : Part} {value : Json} {items : List Json}
    (hitems : asItems part value = .ok items) : value = .array items := by
  cases value <;> simp only [asItems, reduceCtorEq] at hitems
  split at hitems <;> simp_all

private theorem totalSize_children_ofEntry {key : String} {value : Json} {body : FilterBody}
    (hbody : ofEntry key value = .ok body) : totalSize body.children ≤ sizeOf value := by
  unfold ofEntry at hbody
  split at hbody
  · obtain ⟨items, hitems, rfl⟩ := ok_of_map_ok hbody
    have hlt := totalSize_lt items
    simp only [asItems_eq_ok hitems, children, Json.array.sizeOf_spec]
    omega
  · split at hbody
    · obtain ⟨entry, _, rfl⟩ := ok_of_map_ok hbody
      simp [children, totalSize]
    · split at hbody
      · obtain ⟨entries, _, rfl⟩ := ok_of_map_ok hbody
        simp [children, totalSize]
      · split at hbody
        · obtain ⟨entry, _, rfl⟩ := ok_of_map_ok hbody
          simp [children, totalSize]
        · simp at hbody

/-- The filters inside a filter are smaller together than the filter. -/
theorem totalSize_children_lt {filter : Json} {body : FilterBody}
    (hbody : ofJson filter = .ok body) : totalSize body.children < sizeOf filter := by
  unfold ofJson asEntry at hbody
  cases filter with
  | object entries =>
      simp only [asObject, bind, Except.bind] at hbody
      match entries, hbody with
      | [(key, value)], hbody =>
          have hle : totalSize body.children ≤ sizeOf value := totalSize_children_ofEntry hbody
          simp only [Json.object.sizeOf_spec, List.cons.sizeOf_spec, Prod.mk.sizeOf_spec]
          omega
  | _ => simp [asObject, bind, Except.bind] at hbody

end FilterBody

/-- The nodes of queued filters and of all filters inside them. `next` is the first place that
no queued filter has. -/
def filterNodes (registry : Registry) (next : Nat) : List Json → Check (List FilterNode)
  | [] => pure []
  | filter :: queue =>
      match _hbody : FilterBody.ofJson filter with
      | .error violation => throw violation
      | .ok body => do
          let node ← body.node registry next
          let nodes ← filterNodes registry (next + body.children.length) (queue ++ body.children)
          pure (node :: nodes)
termination_by queue => FilterBody.totalSize queue
decreasing_by
  have hlt := FilterBody.totalSize_children_lt _hbody
  simp only [FilterBody.totalSize, FilterBody.totalSize_append]
  omega

/-- The filter of a `WHERE` value; the empty object is no filter. -/
def filterOf (registry : Registry) (value : Json) : Check (Option FilterTree) := do
  let entries ← asObject .filters value
  if entries.isEmpty then pure none
  else
    let nodes ← filterNodes registry 1 [value]
    pure (some ⟨nodes⟩)

end CampusQuery.Query
