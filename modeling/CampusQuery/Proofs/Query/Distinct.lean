import CampusQuery.Proofs.Numeric.HundredthNumbers
import CampusQuery.Proofs.Query.Identity
import Mathlib.Data.Finset.Card

/-!
# Counting distinct values

A count keeps the identities of the values that it has seen, each once. So it
ends with the number of distinct values, as which any choice of one value out of
each class of equal ones will do.
-/

namespace CampusQuery.Query

open Numeric Binary64

/-! ## What it is to count -/

/-- Values of which none equals another stand for all values that equal one of them. -/
structure Represents (chosen values : List Value) : Prop where
  among : ∀ value ∈ chosen, value ∈ values
  different : chosen.Pairwise fun a b => a.same b = false
  met : ∀ value ∈ values, ∃ other ∈ chosen, other.same value = true

/-- The number of distinct values. -/
structure CountsDistinct (values : List Value) (count : Nat) : Prop where
  chosen : ∃ chosen, Represents chosen values
  length_chosen : ∀ chosen, Represents chosen values → chosen.length = count
  pos : 1 ≤ count
  le_length : count ≤ values.length
  eq_length_iff : count = values.length ↔ values.Pairwise fun a b => a.same b = false
  eq_one_iff : count = 1 ↔ ∀ a ∈ values, ∀ b ∈ values, a.same b = true

/-! ## Identities -/

/-- The identities of values, each once. -/
def identities (values : List Value) : Finset KeyPart := (values.map KeyPart.ofValue).toFinset

theorem mem_identities_iff {values : List Value} {part : KeyPart} :
    part ∈ identities values ↔ ∃ value ∈ values, KeyPart.ofValue value = part := by
  rw [identities, List.mem_toFinset, List.mem_map]

theorem card_identities_pos {values : List Value} (hfilled : values ≠ []) :
    1 ≤ (identities values).card := by
  obtain ⟨value, hvalue⟩ := List.exists_mem_of_ne_nil values hfilled
  exact Finset.card_pos.2 ⟨_, mem_identities_iff.2 ⟨value, hvalue, rfl⟩⟩

/-- Seeing values adds those of their identities that were not seen before. -/
theorem seen_of_foldl (values : List Value) {seen : List KeyPart} (hseen : seen.Nodup) :
    (values.foldl Accumulator.seeing seen).Nodup ∧
      ∀ part, part ∈ values.foldl Accumulator.seeing seen ↔
        part ∈ seen ∨ part ∈ identities values := by
  induction values generalizing seen with
  | nil => simpa [identities] using hseen
  | cons value rest ih =>
      -- one more value is seen; the others follow by induction
      have hnext : (Accumulator.seeing seen value).Nodup ∧
          ∀ part, part ∈ Accumulator.seeing seen value ↔
            part ∈ seen ∨ part = KeyPart.ofValue value := by
        unfold Accumulator.seeing
        split
        next hold =>
          rw [List.contains_iff_mem] at hold
          refine ⟨hseen, fun part => ⟨.inl, ?_⟩⟩
          rintro (hpart | rfl)
          · exact hpart
          · exact hold
        next hnew =>
          rw [List.contains_iff_mem] at hnew
          exact ⟨List.nodup_cons.2 ⟨hnew, hseen⟩, fun part => List.mem_cons.trans or_comm⟩
      obtain ⟨hnodup, hmem⟩ := ih hnext.1
      refine ⟨hnodup, fun part => ?_⟩
      rw [List.foldl_cons, hmem, hnext.2, mem_identities_iff, mem_identities_iff,
        List.exists_mem_cons_iff, or_assoc, eq_comm]

theorem length_foldl_seeing_eq (values : List Value) :
    (values.foldl Accumulator.seeing []).length = (identities values).card := by
  obtain ⟨hnodup, hmem⟩ := seen_of_foldl values List.nodup_nil
  rw [← List.toFinset_card_of_nodup hnodup]
  congr 1
  ext part
  rw [List.mem_toFinset, hmem]
  simp

/-! ## Finite values -/

section Finite

variable {values chosen : List Value} (hfinite : ∀ value ∈ values, value.Finite)

include hfinite

/-- Values have different identities exactly if none equals another. -/
theorem nodup_identity_iff (hamong : ∀ value ∈ chosen, value ∈ values) :
    (chosen.map KeyPart.ofValue).Nodup ↔ chosen.Pairwise fun a b => a.same b = false := by
  rw [List.Nodup, List.pairwise_map]
  refine List.Pairwise.iff_of_mem fun {a b} ha hb => ?_
  rw [ne_eq, KeyPart.ofValue_eq_iff (hfinite a (hamong a ha)) (hfinite b (hamong b hb)),
    Bool.not_eq_true]

theorem Represents.length_eq (hrepresents : Represents chosen values) :
    chosen.length = (identities values).card := by
  have hnodup := (nodup_identity_iff hfinite hrepresents.among).2 hrepresents.different
  have hsame : (chosen.map KeyPart.ofValue).toFinset = identities values := by
    ext part
    rw [List.mem_toFinset, List.mem_map, mem_identities_iff]
    constructor
    · rintro ⟨value, hvalue, rfl⟩
      exact ⟨value, hrepresents.among value hvalue, rfl⟩
    · rintro ⟨value, hvalue, rfl⟩
      obtain ⟨other, hother, hequal⟩ := hrepresents.met value hvalue
      exact ⟨other, hother, (KeyPart.ofValue_eq_iff
        (hfinite other (hrepresents.among other hother)) (hfinite value hvalue)).2 hequal⟩
  rw [← hsame, List.toFinset_card_of_nodup hnodup, List.length_map]

theorem exists_represents : ∃ chosen, Represents chosen values := by
  induction values with
  | nil => exact ⟨[], nofun, .nil, nofun⟩
  | cons value rest ih =>
      obtain ⟨hvalue, hrest⟩ := List.forall_mem_cons.1 hfinite
      obtain ⟨chosen, hchosen⟩ := ih hrest
      by_cases hmet : ∃ other ∈ chosen, other.same value = true
      · exact ⟨chosen, fun other hother => List.mem_cons_of_mem _ (hchosen.among other hother),
          hchosen.different, List.forall_mem_cons.2 ⟨hmet, hchosen.met⟩⟩
      · have hself : value.same value = true := (KeyPart.ofValue_eq_iff hvalue hvalue).1 rfl
        have hnew : ∀ other ∈ chosen, value.same other = false := by
          intro other hother
          have hother' := hrest other (hchosen.among other hother)
          rw [← Bool.not_eq_true, ← KeyPart.ofValue_eq_iff hvalue hother', eq_comm,
            KeyPart.ofValue_eq_iff hother' hvalue]
          exact fun hequal => hmet ⟨other, hother, hequal⟩
        refine ⟨value :: chosen, ?_, List.pairwise_cons.2 ⟨hnew, hchosen.different⟩, ?_⟩
        · exact fun other hother => List.cons_subset_cons value hchosen.among hother
        · refine List.forall_mem_cons.2 ⟨⟨value, List.mem_cons_self, hself⟩, ?_⟩
          intro other hother
          obtain ⟨third, hthird, hequal⟩ := hchosen.met other hother
          exact ⟨third, List.mem_cons_of_mem _ hthird, hequal⟩

/-- There are as many distinct values as identities. -/
theorem countsDistinct_card (hfilled : values ≠ []) :
    CountsDistinct values (identities values).card where
  chosen := exists_represents hfinite
  length_chosen _ hchosen := hchosen.length_eq hfinite
  pos := card_identities_pos hfilled
  le_length := (List.toFinset_card_le _).trans_eq (List.length_map _)
  eq_length_iff := by
    rw [← nodup_identity_iff hfinite fun _ hvalue => hvalue, ← Multiset.coe_nodup,
      ← Multiset.toFinset_card_eq_card_iff_nodup, Multiset.coe_card, List.length_map]
    rfl
  eq_one_iff := by
    have hequal : ∀ a ∈ values, ∀ b ∈ values,
        KeyPart.ofValue a = KeyPart.ofValue b ↔ a.same b = true :=
      fun a ha b hb => KeyPart.ofValue_eq_iff (hfinite a ha) (hfinite b hb)
    constructor
    · intro hone a ha b hb
      rw [← hequal a ha b hb]
      exact Finset.card_le_one.1 hone.le _ (mem_identities_iff.2 ⟨a, ha, rfl⟩) _
        (mem_identities_iff.2 ⟨b, hb, rfl⟩)
    · intro hall
      refine Nat.le_antisymm (Finset.card_le_one.2 fun part hpart other hother => ?_)
        (card_identities_pos hfilled)
      obtain ⟨a, ha, rfl⟩ := mem_identities_iff.1 hpart
      obtain ⟨b, hb, rfl⟩ := mem_identities_iff.1 hother
      exact (hequal a ha b hb).2 (hall a ha b hb)

end Finite

/-! ## Counts -/

theorem Represents.perm {chosen values moved : List Value} (hchosen : Represents chosen values)
    (hperm : moved.Perm values) : Represents chosen moved where
  among value hvalue := hperm.mem_iff.2 (hchosen.among value hvalue)
  different := hchosen.different
  met value hvalue := hchosen.met value (hperm.mem_iff.1 hvalue)

theorem CountsDistinct.eq_of_perm {values moved : List Value} {count other : Nat}
    (hcount : CountsDistinct values count) (hother : CountsDistinct moved other)
    (hperm : moved.Perm values) : count = other := by
  obtain ⟨chosen, hchosen⟩ := hcount.chosen
  rw [← hcount.length_chosen chosen hchosen, hother.length_chosen chosen (hchosen.perm hperm)]

theorem valueUnits_ofNat {n : Nat} (hn : n < 2 ^ 53) :
    (ofNat n).valueUnits = n * unitsPerOne := by
  obtain ⟨m, hm, hunits⟩ := exists_ofNat hn
  rw [hm, ← Nat.cast_mul, ← hunits]
  rfl

/-- What COUNT answers over finite values. -/
theorem exists_countsDistinct {values : List Value} (hfinite : ∀ value ∈ values, value.Finite)
    (hfilled : values ≠ []) :
    ∃ count, CountsDistinct values count ∧ aggregate .count values = .ok (.ofNat count) := by
  refine ⟨_, countsDistinct_card hfinite hfilled, ?_⟩
  rw [aggregate_count, length_foldl_seeing_eq]

end CampusQuery.Query
