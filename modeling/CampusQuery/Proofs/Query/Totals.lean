import CampusQuery.Proofs.Numeric.Finiteness
import CampusQuery.Proofs.Query.Aggregates

/-!
# When aggregates are finite

Decimal totals are finite, and so is whatever a group's numbers are compared or
counted to. Only a total that went on in binary64 can leave the finite numbers,
and it does at one addition: the first whose exact sum is beyond them.
-/

namespace CampusQuery.Query

open Numeric Binary64

namespace Total

/-- Whether a total stands for a finite number. -/
def isFinite : Total → Bool
  | .exact _ => true
  | .float sum => sum.isFinite

/-- The number that goes on in binary64 when a total leaves the decimals. -/
def number : Total → Binary64
  | .exact sum => sum.toBinary64
  | .float sum => sum

theorem isFinite_number (total : Total) : total.number.isFinite = total.isFinite := by
  cases total with
  | exact sum => exact sum.isFinite_toBinary64
  | float sum => rfl

theorem add_cases (total : Total) (n : Binary64) :
    (∃ sum, total.add n = .exact sum) ∨ total.add n = .float (total.number + n) := by
  cases total with
  | exact sum =>
      unfold add
      dsimp only
      split
      · exact .inl ⟨_, rfl⟩
      · exact .inr rfl
  | float sum => exact .inr rfl

/-- Adding a number to a total leaves the decimals and the finite numbers: the exact sum of two
finite numbers is too large for one. -/
def Overflows (total : Total) (n : Binary64) : Prop :=
  ∃ a x b y, total.number = .finite a x ∧ n = .finite b y ∧
    total.add n = .float (total.number + n) ∧
    overflowUnits ≤ (signedUnits a x + signedUnits b y).natAbs

theorem isFinite_add_iff {total : Total} {n : Binary64} (htotal : total.isFinite = true)
    (hn : n.isFinite = true) : (total.add n).isFinite = true ↔ ¬ total.Overflows n := by
  rw [← isFinite_number] at htotal
  obtain ⟨a, x, hnumber⟩ := isFinite_iff.1 htotal
  obtain ⟨b, y, rfl⟩ := isFinite_iff.1 hn
  rcases total.add_cases (.finite b y) with ⟨sum, hexact⟩ | hfloat
  · -- an exact step neither overflows nor leaves the finite numbers
    refine iff_of_true (by rw [hexact]; rfl) ?_
    intro hoverflows
    obtain ⟨_, _, _, _, -, -, hfloat, -⟩ := hoverflows
    rw [hexact] at hfloat
    exact nomatch hfloat
  · have hsum := Binary64.isFinite_add_iff a b x y
    rw [hfloat, isFinite, hnumber, hsum]
    constructor
    · intro hlt hoverflows
      obtain ⟨_, _, _, _, hsame, hadded, -, hle⟩ := hoverflows
      rw [hnumber] at hsame
      cases hsame
      cases hadded
      omega
    · intro hnot
      by_contra hlt
      exact hnot ⟨a, x, b, y, hnumber, rfl, hfloat, Nat.le_of_not_lt hlt⟩

theorem isFinite_of_add {total : Total} {n : Binary64} (hsum : (total.add n).isFinite = true) :
    total.isFinite = true := by
  cases total with
  | exact sum => rfl
  | float sum => exact Binary64.isFinite_of_add hsum

theorem isFinite_of_foldl {numbers : List Binary64} {total : Total}
    (hfold : (numbers.foldl add total).isFinite = true) : total.isFinite = true := by
  induction numbers generalizing total with
  | nil => exact hfold
  | cons n rest ih => exact isFinite_of_add (ih hfold)

/-- A run of additions stays finite exactly if no step of it overflows. -/
theorem isFinite_foldl_iff {numbers : List Binary64} {total : Total}
    (htotal : total.isFinite = true) (hfinite : ∀ n ∈ numbers, n.isFinite = true) :
    (numbers.foldl add total).isFinite = true ↔
      ∀ before n after, numbers = before ++ n :: after →
        ¬ (before.foldl add total).Overflows n := by
  induction numbers generalizing total with
  | nil =>
      refine iff_of_true htotal ?_
      intro before n after hsplit
      simp at hsplit
  | cons first rest ih =>
      have hrest : ∀ n ∈ rest, n.isFinite = true :=
        fun n hn => hfinite n (List.mem_cons_of_mem _ hn)
      have hstep := isFinite_add_iff htotal (hfinite first List.mem_cons_self)
      rw [List.foldl_cons]
      constructor
      · intro hfold before n after hsplit
        -- a total that is finite in the end was finite after the first number
        have hnext := isFinite_of_foldl hfold
        cases before with
        | nil =>
            obtain ⟨rfl, rfl⟩ := List.cons.inj hsplit
            exact hstep.1 hnext
        | cons _ others =>
            obtain ⟨rfl, hbehind⟩ := List.cons.inj hsplit
            exact (ih hnext hrest).1 hfold others n after hbehind
      · intro hnever
        have hnext := hstep.2 (hnever [] first rest rfl)
        refine (ih hnext hrest).2 ?_
        intro before n after hsplit
        exact hnever (first :: before) n after (by rw [hsplit]; rfl)

theorem isFinite_rounded (total : Total) : total.rounded.isFinite = total.isFinite := by
  cases total with
  | exact sum => exact Decimal96.isFinite_toBinary64 _
  | float sum => exact isFinite_roundToHundredths

theorem isFinite_mean {total mean : Total} {count : Nat}
    (hmean : total.mean? count = some mean) : mean.isFinite = total.isFinite := by
  unfold mean? at hmean
  split at hmean
  · exact nomatch hmean
  next hcount =>
    have hpositive := Nat.pos_of_ne_zero hcount
    cases total with
    | exact sum =>
        dsimp only at hmean
        split at hmean <;> cases hmean
        · rfl
        · exact (isFinite_div_ofNat _ hpositive).trans sum.isFinite_toBinary64
    | float sum =>
        cases hmean
        exact isFinite_div_ofNat sum hpositive

end Total

/-! ## Answers of aggregates -/

/-- A fold by an operation that picks one of its arguments keeps what holds of all of them. -/
theorem isFinite_foldl_of_pick {pick : Binary64 → Binary64 → Binary64}
    (hpick : ∀ x y, pick x y = x ∨ pick x y = y) {first : Binary64} {rest : List Binary64}
    (hfinite : ∀ n ∈ first :: rest, n.isFinite = true) :
    (rest.foldl pick first).isFinite = true := by
  induction rest generalizing first with
  | nil => exact hfinite first List.mem_cons_self
  | cons n rest ih =>
      apply ih
      intro other hother
      rcases List.mem_cons.1 hother with rfl | hbehind
      · rcases hpick first n with hsame | hsame <;> rw [hsame] <;> apply hfinite <;> simp
      · apply hfinite
        simp [hbehind]

theorem isFinite_of_aggregate_max {numbers : List Binary64} {answer : Binary64}
    (hfilled : numbers ≠ []) (hfinite : ∀ n ∈ numbers, n.isFinite = true)
    (hanswer : aggregate .max (numbers.map Value.number) = .ok answer) :
    answer.isFinite = true := by
  obtain ⟨first, rest, rfl⟩ := List.exists_cons_of_ne_nil hfilled
  rw [aggregate_max] at hanswer
  cases hanswer
  exact isFinite_foldl_of_pick max_eq_or hfinite

theorem isFinite_of_aggregate_min {numbers : List Binary64} {answer : Binary64}
    (hfilled : numbers ≠ []) (hfinite : ∀ n ∈ numbers, n.isFinite = true)
    (hanswer : aggregate .min (numbers.map Value.number) = .ok answer) :
    answer.isFinite = true := by
  obtain ⟨first, rest, rfl⟩ := List.exists_cons_of_ne_nil hfilled
  rw [aggregate_min] at hanswer
  cases hanswer
  exact isFinite_foldl_of_pick min_eq_or hfinite

theorem isFinite_aggregate_sum {numbers : List Binary64} {answer : Binary64}
    (hanswer : aggregate .sum (numbers.map Value.number) = .ok answer) :
    answer.isFinite = (Total.ofNumbers numbers).isFinite := by
  rw [aggregate_sum] at hanswer
  cases hanswer
  exact Total.isFinite_rounded _

theorem isFinite_aggregate_avg {numbers : List Binary64} {answer : Binary64}
    (hfilled : numbers ≠ []) (hanswer : aggregate .avg (numbers.map Value.number) = .ok answer) :
    answer.isFinite = (Total.ofNumbers numbers).isFinite := by
  have hcount : numbers.length ≠ 0 := by simpa using hfilled
  obtain ⟨mean, hmean⟩ := (Total.ofNumbers numbers).exists_mean? hcount
  rw [aggregate_avg hmean] at hanswer
  cases hanswer
  rw [Total.isFinite_rounded, Total.isFinite_mean hmean]

/-- As many values as a machine word counts have a finite count. -/
theorem isFinite_aggregate_count {values : List Value} {answer : Binary64}
    (hcounted : values.length < 2 ^ 64) (hanswer : aggregate .count values = .ok answer) :
    answer.isFinite = true := by
  rw [aggregate_count] at hanswer
  cases hanswer
  have hlength := Accumulator.length_foldl_seeing values []
  rw [List.length_nil, Nat.zero_add] at hlength
  have hbound : (values.foldl Accumulator.seeing []).length ≤ 2 ^ 64 := hlength.trans hcounted.le
  exact (within_ofNat hbound (by decide)).isFinite

end CampusQuery.Query
