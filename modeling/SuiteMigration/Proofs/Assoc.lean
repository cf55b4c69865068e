import Mathlib.Tactic.SplitIfs
import SuiteMigration.Assoc

/-!
Finite maps from strings. Putting a value under a key changes the look-up of that key only, and
keeps the keys in ascending order, so every key occurs once.
-/

set_option autoImplicit false
set_option relaxedAutoImplicit false

namespace SuiteMigration.Assoc

variable {α : Type}

@[simp] theorem lookup_insert_self (key : String) (value : α) (pairs : Assoc α) :
    (insert key value pairs).lookup key = some value := by
  induction pairs with
  | nil => simp [insert]
  | cons pair rest ih =>
    obtain ⟨k, v⟩ := pair
    simp only [insert]
    split_ifs with heq hlt
    · simp
    · simp
    · rw [List.lookup_cons, Bool.eq_false_iff.mpr heq]
      exact ih

theorem lookup_insert_of_ne {key other : String} (h : other ≠ key) (value : α)
    (pairs : Assoc α) : (insert key value pairs).lookup other = pairs.lookup other := by
  have hkey : (other == key) = false := beq_eq_false_iff_ne.mpr h
  induction pairs with
  | nil => simp [insert, List.lookup_cons, hkey]
  | cons pair rest ih =>
    obtain ⟨k, v⟩ := pair
    simp only [insert]
    split_ifs with heq hlt
    · obtain rfl : key = k := eq_of_beq heq
      simp only [List.lookup_cons, hkey]
    · rw [List.lookup_cons, hkey]
    · rw [List.lookup_cons, List.lookup_cons, ih]

@[simp] theorem lookup_erase_self (key : String) (pairs : Assoc α) :
    (erase key pairs).lookup key = none := by
  rw [List.lookup_eq_none_iff]
  rintro ⟨k, v⟩ hmem
  have hne := (List.mem_filter.mp hmem).2
  exact bne_comm.symm.trans hne

theorem lookup_erase_of_ne {key other : String} (h : other ≠ key) (pairs : Assoc α) :
    (erase key pairs).lookup other = pairs.lookup other := by
  induction pairs with
  | nil => rfl
  | cons pair rest ih =>
    obtain ⟨k, v⟩ := pair
    unfold erase at ih ⊢
    by_cases hk : k = key
    · subst hk
      rw [List.filter_cons_of_neg (by simp), ih, List.lookup_cons, beq_eq_false_iff_ne.mpr h]
    · rw [List.filter_cons_of_pos (by simpa using hk), List.lookup_cons, List.lookup_cons, ih]

theorem mem_keys_iff {key : String} {pairs : Assoc α} :
    key ∈ keys pairs ↔ (pairs.lookup key).isSome := by
  rw [List.lookup_isSome_iff]
  constructor
  · intro h
    obtain ⟨pair, hpair, rfl⟩ := List.mem_map.mp h
    exact ⟨pair, hpair, beq_self_eq_true _⟩
  · rintro ⟨pair, hpair, hkey⟩
    rw [eq_of_beq hkey]
    exact List.mem_map_of_mem hpair

theorem mem_keys_insert {key k : String} {value : α} {pairs : Assoc α} :
    k ∈ keys (insert key value pairs) ↔ k = key ∨ k ∈ keys pairs := by
  rw [mem_keys_iff, mem_keys_iff]
  by_cases hk : k = key
  · subst hk
    rw [lookup_insert_self]
    exact iff_of_true rfl (Or.inl rfl)
  · rw [lookup_insert_of_ne hk, or_iff_right hk]

theorem mem_keys_insertNew {key k : String} {value : α} {pairs : Assoc α} :
    k ∈ keys (insertNew key value pairs) ↔ k = key ∨ k ∈ keys pairs := by
  unfold insertNew
  split
  next hsome => exact (or_iff_right_of_imp fun hk ↦ hk ▸ mem_keys_iff.mpr hsome).symm
  next => exact mem_keys_insert

/-- The keys are in ascending order, and so each of them occurs once. -/
def Ascending (pairs : Assoc α) : Prop :=
  (keys pairs).Pairwise (· < ·)

theorem Ascending.nil : Ascending ([] : Assoc α) :=
  List.Pairwise.nil

theorem Ascending.insert {pairs : Assoc α} (h : Ascending pairs) (key : String) (value : α) :
    Ascending (insert key value pairs) := by
  induction pairs with
  | nil => simp [Assoc.insert, Ascending, keys]
  | cons pair rest ih =>
    obtain ⟨k, v⟩ := pair
    obtain ⟨hfirst, hrest⟩ := List.pairwise_cons.mp h
    simp only [Assoc.insert]
    split_ifs with heq hlt
    · obtain rfl : key = k := eq_of_beq heq
      exact List.pairwise_cons.mpr ⟨hfirst, hrest⟩
    · refine List.pairwise_cons.mpr ⟨fun other hother ↦ ?_, h⟩
      rcases List.mem_cons.mp hother with rfl | hother
      · exact hlt
      · exact String.lt_trans hlt (hfirst other hother)
    · -- the new key is neither the first one nor before it, so it is after it
      have hafter : k < key := by
        refine String.not_le.mp fun hle ↦ ?_
        exact heq (beq_iff_eq.mpr (String.le_antisymm hle (String.not_lt.mp hlt)))
      refine List.pairwise_cons.mpr ⟨fun other hother ↦ ?_, ih hrest⟩
      rcases mem_keys_insert.mp hother with rfl | hother
      · exact hafter
      · exact hfirst other hother

theorem Ascending.insertNew {pairs : Assoc α} (h : Ascending pairs) (key : String) (value : α) :
    Ascending (insertNew key value pairs) := by
  unfold Assoc.insertNew
  split
  · exact h
  · exact h.insert key value

end SuiteMigration.Assoc
