import Mathlib.Algebra.Order.Floor.Div
import Mathlib.Data.List.Basic
import Mathlib.Order.Defs.Unbundled
import SuiteMigration.Commit.Writing

/-!
Batches hold all items, each once and in order. A list is cut into pieces that start at the
multiples of their size, so a piece is told by its number; the files that go along are behind the
last piece, and make a batch of their own only where there is no piece. Writing gives one outcome
for each batch, numbered in order, up to the one after which it is stopped.
-/

set_option autoImplicit false
set_option relaxedAutoImplicit false

namespace SuiteMigration.Commit

open SuiteMigration.Repository

theorem flatten_chunksWithin {α : Type} {size : Nat} (hsize : 0 < size) (fuel : Nat)
    (items : List α) (hfuel : items.length ≤ fuel) :
    (chunksWithin size fuel items).flatten = items := by
  induction fuel generalizing items with
  | zero =>
    obtain rfl : items = [] := List.length_eq_zero_iff.mp (Nat.le_zero.mp hfuel)
    rfl
  | succ fuel ih =>
    unfold chunksWithin
    split
    next hempty => exact (List.isEmpty_iff.mp hempty).symm
    next =>
      have hdrop : (items.drop size).length ≤ fuel := by
        rw [List.length_drop]
        omega
      rw [List.flatten_cons, ih _ hdrop, List.take_append_drop]

theorem flatten_addToLast {α : Type} (trailing : List α) (batches : List (List α)) :
    (addToLast trailing batches).flatten = batches.flatten ++ trailing := by
  fun_induction addToLast trailing batches with
  | case1 => simp
  | case2 last => simp
  | case3 batch rest _ ih => simp [ih]

/-- No item is lost in batching, and none is put into two batches. -/
theorem flatten_planBatches (items trailing : List Item) (batchSize : Nat) :
    (planBatches items trailing batchSize).flatten = items ++ trailing := by
  have hchunks : (chunks (max batchSize 1) items).flatten = items :=
    flatten_chunksWithin (by omega) _ items (Nat.le_refl _)
  unfold planBatches
  dsimp only
  split
  next hempty => rw [hchunks, List.isEmpty_iff.mp hempty, List.append_nil]
  next => rw [flatten_addToLast, hchunks]

/-! ### Pieces -/

section Pieces

variable {α : Type} {size : Nat}

/-- The piece with a number starts at that multiple of the size, as long as items are left there. -/
theorem getElem?_chunksWithin (hsize : 0 < size) (fuel : Nat) (items : List α)
    (hfuel : items.length ≤ fuel) (i : Nat) :
    (chunksWithin size fuel items)[i]? =
      if i * size < items.length then some ((items.drop (i * size)).take size) else none := by
  induction fuel generalizing items i with
  | zero =>
    obtain rfl : items = [] := List.length_eq_zero_iff.mp (Nat.le_zero.mp hfuel)
    rfl
  | succ fuel ih =>
    rw [chunksWithin]
    split
    next hempty =>
      rw [List.isEmpty_iff.mp hempty]
      rfl
    next hempty =>
      have hpos : 0 < items.length := List.length_pos_iff.mpr (mt List.isEmpty_iff.mpr hempty)
      cases i with
      | zero => simp [hpos]
      | succ i =>
        have hlength : (items.drop size).length = items.length - size := List.length_drop
        have hstart : (i + 1) * size = size + i * size := by rw [Nat.succ_mul, Nat.add_comm]
        rw [List.getElem?_cons_succ, ih _ (by omega), List.drop_drop, hstart]
        congr 1
        rw [hlength, eq_iff_iff]
        omega

theorem getElem?_chunks (hsize : 0 < size) (items : List α) (i : Nat) :
    (chunks size items)[i]? =
      if i * size < items.length then some ((items.drop (i * size)).take size) else none :=
  getElem?_chunksWithin hsize _ items (Nat.le_refl _) i

theorem length_chunks (hsize : 0 < size) (items : List α) :
    (chunks size items).length = items.length ⌈/⌉ size := by
  refine eq_of_forall_ge_iff fun i ↦ ?_
  rw [← List.getElem?_eq_none_iff, getElem?_chunks hsize, ceilDiv_le_iff_le_mul hsize,
    Nat.mul_comm]
  split
  next h => simpa using h
  next h => simpa using h

theorem chunks_ne_nil (hsize : 0 < size) {items : List α} (hne : items ≠ []) :
    chunks size items ≠ [] := by
  intro hnil
  have hflatten := flatten_chunksWithin hsize _ items (Nat.le_refl _)
  rw [← chunks, hnil] at hflatten
  exact hne hflatten.symm

theorem nil_notMem_chunks (hsize : 0 < size) (items : List α) : [] ∉ chunks size items := by
  intro hmem
  obtain ⟨i, hi⟩ := List.mem_iff_getElem?.mp hmem
  rw [getElem?_chunks hsize] at hi
  split at hi
  next hstart =>
    have hlength := congrArg List.length (Option.some.inj hi)
    simp only [List.length_take, List.length_drop, List.length_nil] at hlength
    omega
  next => cases hi

/-- A piece ends where the next one starts, or with the items. -/
theorem take_drop_eq_extract (items : List α) (i : Nat) :
    (items.drop (i * size)).take size =
      items.extract (i * size) (min ((i + 1) * size) items.length) := by
  rw [List.extract_eq_take_drop, List.take_eq_take_iff, List.length_drop, Nat.succ_mul]
  omega

end Pieces

/-! ### The last batch -/

section Last

variable {α : Type} (trailing : List α) {batches : List (List α)}

theorem length_addToLast (hne : batches ≠ []) :
    (addToLast trailing batches).length = batches.length := by
  fun_induction addToLast trailing batches with
  | case1 => exact absurd rfl hne
  | case2 last => rfl
  | case3 batch rest hrest ih => rw [List.length_cons, List.length_cons, ih hrest]

/-- What goes along is behind the last batch, and no other batch changes. -/
theorem getElem?_addToLast (hne : batches ≠ []) (i : Nat) :
    (addToLast trailing batches)[i]? =
      batches[i]?.map (· ++ if i + 1 = batches.length then trailing else []) := by
  fun_induction addToLast trailing batches generalizing i with
  | case1 => exact absurd rfl hne
  | case2 last => cases i <;> simp
  | case3 batch rest hrest ih =>
    cases i with
    | zero => simp [show rest ≠ [] from hrest]
    | succ i => simp [ih hrest]

theorem nil_notMem_addToLast (htrailing : trailing ≠ []) (h : [] ∉ batches) :
    [] ∉ addToLast trailing batches := by
  fun_induction addToLast trailing batches with
  | case1 => simpa using htrailing.symm
  | case2 last => simp [htrailing]
  | case3 batch rest hrest ih =>
    rw [List.mem_cons, not_or] at h ⊢
    exact ⟨h.1, ih h.2⟩

end Last

/-! ### Batches -/

section Plan

variable (items : List Item) {trailing : List Item} (batchSize : Nat)

theorem size_pos : 0 < max batchSize 1 :=
  Nat.lt_of_lt_of_le Nat.one_pos (Nat.le_max_right _ _)

theorem planBatches_nil : planBatches items [] batchSize = chunks (max batchSize 1) items := rfl

theorem planBatches_of_ne_nil (h : trailing ≠ []) :
    planBatches items trailing batchSize = addToLast trailing (chunks (max batchSize 1) items) := by
  rw [planBatches]
  exact if_neg (mt List.isEmpty_iff.mp h)

theorem nil_notMem_planBatches : [] ∉ planBatches items trailing batchSize := by
  have hnone := nil_notMem_chunks (size_pos batchSize) items
  by_cases htrailing : trailing = []
  · subst htrailing
    exact hnone
  · rw [planBatches_of_ne_nil items batchSize htrailing]
    exact nil_notMem_addToLast trailing htrailing hnone

theorem length_planBatches : (planBatches items trailing batchSize).length =
    if items = [] ∧ trailing ≠ [] then 1 else items.length ⌈/⌉ max batchSize 1 := by
  by_cases htrailing : trailing = []
  · subst htrailing
    rw [if_neg fun h ↦ h.2 rfl, planBatches_nil, length_chunks (size_pos batchSize)]
  · rw [planBatches_of_ne_nil items batchSize htrailing]
    by_cases hitems : items = []
    · subst hitems
      rw [if_pos ⟨rfl, htrailing⟩]
      rfl
    · rw [if_neg fun h ↦ hitems h.1, length_addToLast _ (chunks_ne_nil (size_pos batchSize) hitems),
        length_chunks (size_pos batchSize)]

/-- The items of a batch are those of the piece with its number, also where there is no piece. -/
theorem getElem?_planBatches {i : Nat} (h : i < (planBatches items trailing batchSize).length) :
    (planBatches items trailing batchSize)[i]? =
      some ((items.drop (i * max batchSize 1)).take (max batchSize 1) ++
        if i + 1 = (planBatches items trailing batchSize).length then trailing else []) := by
  have hsize := size_pos batchSize
  have hpiece (hi : i < (chunks (max batchSize 1) items).length) :
      (chunks (max batchSize 1) items)[i]? =
        some ((items.drop (i * max batchSize 1)).take (max batchSize 1)) := by
    have hstart := getElem?_chunks hsize items i
    split at hstart
    next => exact hstart
    next => exact absurd (List.getElem?_eq_none_iff.mp hstart) (Nat.not_le.mpr hi)
  by_cases htrailing : trailing = []
  · subst htrailing
    rw [planBatches_nil] at h ⊢
    rw [hpiece h, ite_self, List.append_nil]
  · rw [planBatches_of_ne_nil items batchSize htrailing] at h ⊢
    by_cases hitems : items = []
    · subst hitems
      have hsingle : addToLast trailing (chunks (max batchSize 1) []) = [trailing] := rfl
      rw [hsingle] at h ⊢
      obtain rfl : i = 0 := Nat.lt_one_iff.mp h
      simp
    · have hne := chunks_ne_nil hsize hitems
      rw [length_addToLast trailing hne] at h ⊢
      rw [getElem?_addToLast trailing hne, hpiece h, Option.map_some]

end Plan

/-- Batches hold the items in order, and no batch is empty. There is one for each started multiple
of the size, or one for the trailing files alone; the batch with a number has the items from that
multiple of the size up to the next, and the last one has the trailing files behind them. -/
theorem planBatches_partition (items trailing : List Item) (batchSize : Nat) :
    let size := max batchSize 1
    let batches := planBatches items trailing batchSize
    batches.flatten = items ++ trailing ∧
      [] ∉ batches ∧
      batches.length = (if items = [] ∧ trailing ≠ [] then 1 else items.length ⌈/⌉ size) ∧
      ∀ i, batches[i]? =
        if i < batches.length then
          some (items.extract (i * size) (min ((i + 1) * size) items.length) ++
            if i + 1 = batches.length then trailing else [])
        else none := by
  intro size batches
  refine ⟨flatten_planBatches items trailing batchSize, nil_notMem_planBatches items batchSize,
    length_planBatches items batchSize, fun i ↦ ?_⟩
  split
  next h => rw [← take_drop_eq_extract, getElem?_planBatches items batchSize h]
  next h => exact List.getElem?_eq_none_iff.mpr (Nat.le_of_not_lt h)

example (a b c shared : Item) : planBatches [a, b, c] [shared] 2 = [[a, b], [c, shared]] := rfl

/-! ### Outcomes -/

variable {R : Type} [Repository R]

/-- The outcome of a batch is about its number and its items. -/
theorem commitBatch_about (policy : Policy) (branch : String) (index total : Nat)
    (items : List Item) (repo : R) (now : Nat) :
    (commitBatch policy branch index total items repo now).1.index = index ∧
      (commitBatch policy branch index total items repo now).1.items = items := by
  unfold commitBatch
  dsimp only
  split
  · exact ⟨rfl, rfl⟩
  · split <;> exact ⟨rfl, rfl⟩

/-- Outcomes are numbered in order. -/
theorem commitFrom_index (policy : Policy) (stops : Nat → Bool) (branch : String) (total : Nat)
    (batches : List (List Item)) (index : Nat) (repo : R) (now : Nat) :
    ∀ i outcome, (commitFrom policy stops branch total index batches repo now).1[i]? =
      some outcome → outcome.index = index + i := by
  induction batches generalizing index repo now with
  | nil => simp [commitFrom]
  | cons items rest ih =>
    intro i outcome hi
    rw [commitFrom] at hi
    dsimp only at hi
    split at hi
    · cases i with
      | zero =>
        obtain rfl := Option.some.inj hi
        exact (commitBatch_about policy branch index total items repo now).1
      | succ i => simp at hi
    · cases i with
      | zero =>
        obtain rfl := Option.some.inj hi
        exact (commitBatch_about policy branch index total items repo now).1
      | succ i =>
        rw [List.getElem?_cons_succ] at hi
        rw [ih _ _ _ i outcome hi]
        omega

/-- Writing that no outcome stops has an outcome for every batch. -/
theorem commitFrom_items (policy : Policy) (stops : Nat → Bool) (branch : String) (total : Nat)
    (batches : List (List Item)) (index : Nat) (repo : R) (now : Nat)
    (h : ∀ outcome ∈ (commitFrom policy stops branch total index batches repo now).1,
      stops outcome.index = false) :
    (commitFrom policy stops branch total index batches repo now).1.map Outcome.items =
      batches := by
  induction batches generalizing index repo now with
  | nil => rfl
  | cons items rest ih =>
    rw [commitFrom] at h ⊢
    dsimp only at h ⊢
    split at h
    next hstop =>
      have hfirst := h _ List.mem_cons_self
      rw [(commitBatch_about ..).1, hstop] at hfirst
      cases hfirst
    next hgo =>
      rw [if_neg hgo, List.map_cons, (commitBatch_about ..).2]
      exact congrArg _ (ih _ _ _ fun outcome houtcome ↦ h outcome (List.mem_cons_of_mem _ houtcome))

/-! ### What writing does to a repository -/

section Along

variable {rel : R → R → Prop} [IsPreorder R rel] {branch : String}
  (hfile : ∀ file text r, rel r (Repository.writeFile file text branch r).2)

include hfile

theorem writeEach_along (text : String) (files : List FileWrite) (repo : R) :
    rel repo (writeEach text branch files repo).2 := by
  induction files generalizing repo with
  | nil => exact refl_of rel repo
  | cons file rest ih =>
    have hfirst := hfile file text repo
    unfold writeEach
    split
    next e next hwrite =>
      rw [hwrite] at hfirst
      exact hfirst
    next id next hwrite =>
      rw [hwrite] at hfirst
      exact trans_of rel hfirst (ih next)

variable (hfiles : ∀ files text r, rel r (Repository.writeFiles files text branch r).2)

include hfiles

theorem writeBatch_along (items : List Item) (text : String) (repo : R) :
    rel repo (writeBatch items text branch repo).2 := by
  unfold writeBatch
  dsimp only
  split
  · exact hfiles _ _ _
  · exact writeEach_along hfile _ _ _

theorem commitBatch_along (policy : Policy) (index total : Nat) (items : List Item) (repo : R)
    (now : Nat) : rel repo (commitBatch policy branch index total items repo now).2 := by
  have hwrite (r : R) := writeBatch_along hfile hfiles items (message index total items) r
  have hfirst := hwrite repo
  unfold commitBatch
  dsimp only
  split
  next ids next heq =>
    rw [heq] at hfirst
    exact hfirst
  next e next heq =>
    rw [heq] at hfirst
    split
    · exact trans_of rel hfirst (hwrite next)
    · exact hfirst

/-- A relation that every write to a branch keeps is kept by the writing of batches, with all their
attempts. -/
theorem commitFrom_along (policy : Policy) (stops : Nat → Bool) (total index : Nat)
    (batches : List (List Item)) (repo : R) (now : Nat) :
    rel repo (commitFrom policy stops branch total index batches repo now).2.1 := by
  induction batches generalizing index repo now with
  | nil => exact refl_of rel repo
  | cons items rest ih =>
    have hfirst := commitBatch_along hfile hfiles policy index total items repo now
    unfold commitFrom
    dsimp only
    split
    · exact hfirst
    · exact trans_of rel hfirst (ih _ _ _)

end Along

end SuiteMigration.Commit
