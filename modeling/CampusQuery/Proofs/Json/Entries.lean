import CampusQuery.Json.Basic
import Mathlib.Data.List.Nodup

/-!
# Entries by key

An entry that is looked up is one of the entries. Entries that have distinct keys
already are kept as they are.
-/

namespace CampusQuery.Json

variable {α : Type}

theorem mem_of_lookup? {key : String} {value : α} {entries : List (String × α)}
    (hfound : lookup? key entries = some value) : (key, value) ∈ entries := by
  induction entries with
  | nil => exact nomatch hfound
  | cons entry rest ih =>
      unfold lookup? at hfound
      split at hfound
      next hkey =>
        cases hfound
        rw [← hkey]
        exact List.mem_cons_self
      next => exact List.mem_cons_of_mem _ (ih hfound)

theorem lookup?_eq_some_iff {key : String} {value : α} {entries : List (String × α)}
    (hnodup : (entries.map Prod.fst).Nodup) :
    lookup? key entries = some value ↔ (key, value) ∈ entries := by
  refine ⟨mem_of_lookup?, fun hmem => ?_⟩
  induction entries with
  | nil => exact absurd hmem List.not_mem_nil
  | cons entry rest ih =>
      rw [List.map_cons, List.nodup_cons] at hnodup
      unfold lookup?
      rcases List.mem_cons.1 hmem with rfl | hrest
      · rw [if_pos rfl]
      · have hkey : entry.1 ≠ key := by
          rintro rfl
          exact hnodup.1 (List.mem_map.2 ⟨_, hrest, rfl⟩)
        rw [if_neg hkey]
        exact ih hnodup.2 hrest

theorem putEntry_of_notMem {key : String} {entries : List (String × α)}
    (hnew : key ∉ entries.map Prod.fst) (value : α) :
    putEntry key value entries = entries ++ [(key, value)] := by
  induction entries with
  | nil => rfl
  | cons entry rest ih =>
      rw [List.map_cons, List.mem_cons, not_or] at hnew
      rw [putEntry, if_neg (Ne.symm hnew.1), ih hnew.2, List.cons_append]

theorem foldl_putEntry {known entries : List (String × α)}
    (hnodup : ((known ++ entries).map Prod.fst).Nodup) :
    entries.foldl (fun known entry => putEntry entry.1 entry.2 known) known =
      known ++ entries := by
  induction entries generalizing known with
  | nil => simp
  | cons entry rest ih =>
      have hnew : entry.1 ∉ known.map Prod.fst := by
        intro hmem
        rw [List.map_append, List.nodup_append] at hnodup
        exact hnodup.2.2 _ hmem _ List.mem_cons_self rfl
      have hmoved : known ++ entry :: rest = (known ++ [entry]) ++ rest := by simp
      rw [hmoved] at hnodup
      rw [List.foldl_cons, putEntry_of_notMem hnew, hmoved]
      exact ih hnodup

theorem distinct_eq_self {entries : List (String × α)} (hnodup : (entries.map Prod.fst).Nodup) :
    distinct entries = entries := by
  unfold distinct
  rw [foldl_putEntry hnodup, List.nil_append]

end CampusQuery.Json
