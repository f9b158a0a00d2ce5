import CampusQuery.Query.Aggregate
import CampusQuery.Proofs.Query.Checks

/-!
# What aggregates answer

Over numbers, or over any values for a count, an aggregate always answers, and
its answer is a fold over them.
-/

namespace CampusQuery.Query

open Numeric

namespace Accumulator

/-- An accumulator that takes in each item by a step on its contents ends with their fold. -/
theorem foldlM_add_of_step {σ ι : Type} (hold : σ → Accumulator) (step : σ → ι → σ)
    (value : ι → Value) (hstep : ∀ s i, (hold s).add (value i) = .ok (hold (step s i)))
    (items : List ι) (s : σ) :
    (items.map value).foldlM add (hold s) = .ok (hold (items.foldl step s)) := by
  induction items generalizing s with
  | nil => rfl
  | cons item rest ih =>
      rw [List.map_cons, List.foldlM_cons, hstep, List.foldl_cons]
      exact ih (step s item)

/-- The greatest number so far. -/
def greater (greatest : Option Binary64) (n : Binary64) : Option Binary64 :=
  some (match greatest with | some g => g.max n | none => n)

/-- The least number so far. -/
def smaller (least : Option Binary64) (n : Binary64) : Option Binary64 :=
  some (match least with | some l => l.min n | none => n)

/-- The identities seen so far. -/
def seeing (seen : List KeyPart) (value : Value) : List KeyPart :=
  if seen.contains (KeyPart.ofValue value) then seen else KeyPart.ofValue value :: seen

theorem length_foldl_seeing (values : List Value) (seen : List KeyPart) :
    (values.foldl seeing seen).length ≤ seen.length + values.length := by
  induction values generalizing seen with
  | nil => exact Nat.le_refl _
  | cons value rest ih =>
      have hone : (seeing seen value).length ≤ seen.length + 1 := by
        unfold seeing
        split
        · exact Nat.le_succ _
        · exact Nat.le_refl _
      have hrest := ih (seeing seen value)
      rw [List.foldl_cons, List.length_cons]
      omega

end Accumulator

/-- The running total of numbers. -/
def Total.ofNumbers (numbers : List Binary64) : Total := numbers.foldl Total.add (.exact 0)

open Accumulator

theorem foldlM_sum (numbers : List Binary64) :
    (numbers.map Value.number).foldlM add (start .sum) = .ok (.sum (Total.ofNumbers numbers)) :=
  foldlM_add_of_step .sum Total.add .number (fun _ _ => rfl) numbers (.exact 0)

theorem aggregate_sum (numbers : List Binary64) :
    aggregate .sum (numbers.map Value.number) = .ok (Total.ofNumbers numbers).rounded := by
  rw [aggregate, foldlM_sum]
  rfl

theorem foldl_avg (numbers : List Binary64) (total : Total) (count : Nat) :
    numbers.foldl (fun s n => (s.1.add n, s.2 + 1)) (total, count) =
      (numbers.foldl Total.add total, count + numbers.length) := by
  induction numbers generalizing total count with
  | nil => rfl
  | cons n rest ih =>
      rw [List.foldl_cons, ih, List.foldl_cons, List.length_cons, Nat.add_assoc,
        Nat.add_comm 1 rest.length]

theorem Total.exists_mean? (total : Total) {count : Nat} (hcount : count ≠ 0) :
    ∃ mean, total.mean? count = some mean := by
  unfold mean?
  rw [if_neg hcount]
  cases total with
  | exact sum =>
      dsimp only
      split
      · exact ⟨_, rfl⟩
      · exact ⟨_, rfl⟩
  | float sum => exact ⟨_, rfl⟩

theorem foldlM_avg (numbers : List Binary64) :
    (numbers.map Value.number).foldlM add (start .avg) =
      .ok (.avg (Total.ofNumbers numbers) numbers.length) := by
  have hfold := foldlM_add_of_step (fun s : Total × Nat => .avg s.1 s.2)
    (fun s n => (s.1.add n, s.2 + 1)) .number (fun _ _ => rfl) numbers (.exact 0, 0)
  rw [foldl_avg, Nat.zero_add] at hfold
  exact hfold

theorem aggregate_avg {numbers : List Binary64} {mean : Total}
    (hmean : (Total.ofNumbers numbers).mean? numbers.length = some mean) :
    aggregate .avg (numbers.map Value.number) = .ok mean.rounded := by
  rw [aggregate, foldlM_avg]
  change Accumulator.finish (.avg (Total.ofNumbers numbers) numbers.length) = _
  rw [finish, hmean]

theorem foldl_greater (first : Binary64) (rest : List Binary64) :
    rest.foldl greater (some first) = some (rest.foldl Binary64.max first) := by
  induction rest generalizing first with
  | nil => rfl
  | cons n rest ih => exact ih (first.max n)

theorem foldl_smaller (first : Binary64) (rest : List Binary64) :
    rest.foldl smaller (some first) = some (rest.foldl Binary64.min first) := by
  induction rest generalizing first with
  | nil => rfl
  | cons n rest ih => exact ih (first.min n)

theorem aggregate_max (first : Binary64) (rest : List Binary64) :
    aggregate .max ((first :: rest).map Value.number) = .ok (rest.foldl Binary64.max first) := by
  unfold aggregate start
  rw [foldlM_add_of_step .max greater .number (fun _ _ => rfl), List.foldl_cons]
  change Accumulator.finish (.max (rest.foldl greater (some first))) = _
  rw [foldl_greater]
  rfl

theorem aggregate_min (first : Binary64) (rest : List Binary64) :
    aggregate .min ((first :: rest).map Value.number) = .ok (rest.foldl Binary64.min first) := by
  unfold aggregate start
  rw [foldlM_add_of_step .min smaller .number (fun _ _ => rfl), List.foldl_cons]
  change Accumulator.finish (.min (rest.foldl smaller (some first))) = _
  rw [foldl_smaller]
  rfl

theorem aggregate_count (values : List Value) :
    aggregate .count values = .ok (.ofNat (values.foldl seeing []).length) := by
  unfold aggregate start
  have hfold := foldlM_add_of_step .distinct seeing id (fun _ _ => rfl) values []
  rw [List.map_id] at hfold
  rw [hfold]
  rfl

/-- Every token answers over numbers of which there is at least one. -/
theorem exists_aggregate (token : ApplyToken) {numbers : List Binary64} (hfilled : numbers ≠ []) :
    ∃ answer, aggregate token (numbers.map Value.number) = .ok answer := by
  obtain ⟨first, rest, rfl⟩ := List.exists_cons_of_ne_nil hfilled
  cases token with
  | max => exact ⟨_, aggregate_max first rest⟩
  | min => exact ⟨_, aggregate_min first rest⟩
  | avg =>
      have hcount : (first :: rest).length ≠ 0 := Nat.succ_ne_zero _
      obtain ⟨mean, hmean⟩ := (Total.ofNumbers (first :: rest)).exists_mean? hcount
      exact ⟨_, aggregate_avg hmean⟩
  | sum => exact ⟨_, aggregate_sum _⟩
  | count => exact ⟨_, aggregate_count _⟩

end CampusQuery.Query
