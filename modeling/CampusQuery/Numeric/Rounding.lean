/-!
# Rounding a quotient to an integer

Every inexact step of the numeric types is one exact quotient of naturals
followed by one rounding. `roundDiv` is never more than half a unit away, and
`Tie` says where an exact half goes.
-/

namespace CampusQuery.Numeric

/-- Where a quotient exactly halfway between two integers goes. -/
inductive Tie where
  | toEven
  | up
deriving DecidableEq, Repr

/-- The integer nearest to `num / den`. -/
def roundDiv (tie : Tie) (num den : Nat) : Nat :=
  let quotient := num / den
  let twice := 2 * (num % den)
  if twice < den then quotient
  else if den < twice then quotient + 1
  else match tie with
    | .up => quotient + 1
    | .toEven => quotient + quotient % 2

/-- A quotient without remainder is kept. -/
theorem roundDiv_mul (tie : Tie) (n : Nat) {den : Nat} (hden : 0 < den) :
    roundDiv tie (n * den) den = n := by
  simp [roundDiv, hden]

private theorem succ_quotient_mul (num den : Nat) :
    (num / den + 1) * den = den * (num / den) + den := by
  rw [Nat.add_mul, Nat.mul_comm, Nat.one_mul]

/-- The result is the quotient or its successor, whichever is not more than half a unit away. -/
theorem roundDiv_cases (tie : Tie) (num den : Nat) :
    (roundDiv tie num den = num / den ∧ 2 * (num % den) ≤ den) ∨
      (roundDiv tie num den = num / den + 1 ∧ den ≤ 2 * (num % den)) := by
  unfold roundDiv
  dsimp only
  by_cases hlow : 2 * (num % den) < den
  · rw [if_pos hlow]; exact Or.inl ⟨rfl, Nat.le_of_lt hlow⟩
  · rw [if_neg hlow]
    by_cases hhigh : den < 2 * (num % den)
    · rw [if_pos hhigh]; exact Or.inr ⟨rfl, Nat.le_of_lt hhigh⟩
    · rw [if_neg hhigh]
      cases tie with
      | up => exact Or.inr ⟨rfl, Nat.le_of_not_lt hlow⟩
      | toEven =>
        rcases Nat.mod_two_eq_zero_or_one (num / den) with hparity | hparity
        · exact Or.inl ⟨by simp only [hparity, Nat.add_zero], Nat.le_of_not_lt hhigh⟩
        · exact Or.inr ⟨by simp only [hparity], Nat.le_of_not_lt hlow⟩

/-- The result overshoots by at most half a unit. -/
theorem roundDiv_mul_le (tie : Tie) (num den : Nat) :
    2 * (roundDiv tie num den * den) ≤ 2 * num + den := by
  have hsplit := Nat.div_add_mod num den
  rcases roundDiv_cases tie num den with ⟨hvalue, _⟩ | ⟨hvalue, _⟩ <;> rw [hvalue]
  · rw [Nat.mul_comm (num / den)]; omega
  · rw [succ_quotient_mul]; omega

/-- The result undershoots by at most half a unit. -/
theorem le_roundDiv_mul (tie : Tie) (num : Nat) {den : Nat} (hden : 0 < den) :
    2 * num ≤ 2 * (roundDiv tie num den * den) + den := by
  have hsplit := Nat.div_add_mod num den
  have hrem := Nat.mod_lt num hden
  rcases roundDiv_cases tie num den with ⟨hvalue, _⟩ | ⟨hvalue, _⟩ <;> rw [hvalue]
  · rw [Nat.mul_comm (num / den)]; omega
  · rw [succ_quotient_mul]; omega

/-- A quotient by a positive number does not round past the number itself. -/
theorem roundDiv_le (tie : Tie) (num : Nat) {den : Nat} (hden : 0 < den) :
    roundDiv tie num den ≤ num := by
  rcases roundDiv_cases tie num den with ⟨hvalue, _⟩ | ⟨hvalue, hrem⟩ <;> rw [hvalue]
  · exact Nat.div_le_self num den
  · have hsplit := Nat.div_add_mod num den
    have hle := Nat.le_mul_of_pos_left (num / den) hden
    have hlt := Nat.mod_lt num hden
    omega

end CampusQuery.Numeric
