import Mathlib.Data.List.Sort
import SuiteMigration.Proofs.Repository.Store
import SuiteMigration.Skeleton

/-!
The imports of the common resource. They are the resources among the given paths, relative to the
root and without the common resource itself, each once and in ascending order; so they depend on
nothing but which paths are given.

Sorting a list of strings and dropping the repetitions keep what the list holds and put it into
strictly ascending order, so the result depends on nothing else.
-/

set_option autoImplicit false
set_option relaxedAutoImplicit false

namespace SuiteMigration.Text

/-! ### Sorted lists without repetitions -/

theorem le_eq_true_iff {a b : String} : le a b = true ↔ a ≤ b := by
  rw [le, Bool.not_eq_true', decide_eq_false_iff_not, String.not_lt]

theorem mem_sort {strings : List String} {s : String} : s ∈ sort strings ↔ s ∈ strings :=
  (List.mergeSort_perm strings le).mem_iff

theorem sort_pairwise (strings : List String) : (sort strings).Pairwise (· ≤ ·) := by
  have htrans (a b c : String) (hab : le a b = true) (hbc : le b c = true) : le a c = true :=
    le_eq_true_iff.mpr (String.le_trans (le_eq_true_iff.mp hab) (le_eq_true_iff.mp hbc))
  have htotal (a b : String) : (le a b || le b a) = true := by
    rw [Bool.or_eq_true, le_eq_true_iff, le_eq_true_iff]
    exact String.le_total a b
  exact (List.pairwise_mergeSort htrans htotal strings).imp le_eq_true_iff.mp

theorem mem_dedup {strings : List String} {s : String} : s ∈ dedup strings ↔ s ∈ strings := by
  fun_induction dedup strings with
  | case1 => rfl
  | case2 => rfl
  | case3 first next others heq ih =>
    rw [ih, eq_of_beq heq]
    simp
  | case4 first next others hne ih => rw [List.mem_cons, List.mem_cons, ih]

/-- Equal neighbours are all the repetitions that a sorted list has. -/
theorem dedup_pairwise {strings : List String} (h : strings.Pairwise (· ≤ ·)) :
    (dedup strings).Pairwise (· < ·) := by
  fun_induction dedup strings with
  | case1 => exact List.Pairwise.nil
  | case2 => exact List.pairwise_singleton _ _
  | case3 first next others heq ih => exact ih h.of_cons
  | case4 first next others hne ih =>
    obtain ⟨hfirst, hrest⟩ := List.pairwise_cons.mp h
    refine List.pairwise_cons.mpr ⟨fun s hs ↦ ?_, ih hrest⟩
    have hnext : first < next := by
      refine String.not_le.mp fun hle ↦ hne (beq_iff_eq.mpr ?_)
      exact String.le_antisymm (hfirst next List.mem_cons_self) hle
    rcases List.mem_cons.mp (mem_dedup.mp hs) with rfl | hs
    · exact hnext
    · have hafter : next ≤ s := (List.pairwise_cons.mp hrest).1 s hs
      exact String.not_le.mp fun hle ↦ String.not_lt.mpr (String.le_trans hafter hle) hnext

/-- Lists in strictly ascending order are equal if they hold the same strings. -/
theorem eq_of_pairwise_lt {first second : List String} (hfirst : first.Pairwise (· < ·))
    (hsecond : second.Pairwise (· < ·)) (h : ∀ s, s ∈ first ↔ s ∈ second) : first = second := by
  have hperm : first.Perm second :=
    (List.perm_ext_iff_of_nodup (hfirst.imp String.ne_of_lt) (hsecond.imp String.ne_of_lt)).mpr h
  refine hperm.eq_of_pairwise (fun a b _ _ hab hba ↦ ?_) hfirst hsecond
  exact absurd (String.lt_trans hab hba) (String.lt_irrefl a)

end SuiteMigration.Text

namespace SuiteMigration.Skeleton

open SuiteMigration.Text SuiteMigration.Path SuiteMigration.Repository

/-! ### The imports -/

/-- A path relative to the root; one that does not lie below the root stays as it is. -/
def relativePath (root path : String) : String :=
  (afterStart? (trimSlashes root ++ "/") path).getD path

theorem mem_importPaths {root path : String} {resources : List String} :
    path ∈ importPaths root resources ↔
      (∃ target ∈ resources, relativePath root target = path) ∧ endsWith path ".resource" = true ∧
        path ≠ commonResource := by
  rw [importPaths, mem_dedup, mem_sort, List.mem_filter, List.mem_map, Bool.and_eq_true,
    bne_iff_ne]
  rfl

theorem importPaths_pairwise (root : String) (resources : List String) :
    (importPaths root resources).Pairwise (· < ·) :=
  dedup_pairwise (sort_pairwise _)

/-- Imports are equal if the same paths are imported. -/
theorem importPaths_ext {root : String} {resources others : List String}
    (h : ∀ path, path ∈ importPaths root resources ↔ path ∈ importPaths root others) :
    importPaths root resources = importPaths root others :=
  eq_of_pairwise_lt (importPaths_pairwise root resources) (importPaths_pairwise root others) h

theorem importPaths_congr {root : String} {resources others : List String}
    (h : ∀ path, path ∈ resources ↔ path ∈ others) :
    importPaths root resources = importPaths root others :=
  importPaths_ext fun path ↦ by simp only [mem_importPaths, h]

theorem commonLines_congr {root library : String} {mode : Mode} {resources others : List String}
    (h : ∀ path, path ∈ resources ↔ path ∈ others) :
    commonLines root library mode resources = commonLines root library mode others := by
  rw [commonLines, commonLines, importPaths_congr h]

/-! ### The shared files -/

theorem below_injective {root path other : String} (h : below root path = below root other) :
    path = other := by
  unfold below at h
  dsimp only at h
  split at h
  · exact h
  · exact String.append_right_inj _ |>.mp h

/-- There are always as many shared files. -/
theorem length_files {root library : String} {mode : Mode} {resources : List String}
    {shared : List FileWrite} (h : files root library mode resources = .ok shared) :
    shared.length = 3 := by
  unfold files at h
  dsimp only at h
  split at h
  · cases h
  · obtain rfl := Except.ok.inj h
    rfl

/-- The shared files have the common resource at its path. -/
theorem lastContent_files {root library : String} {mode : Mode} {resources : List String}
    {shared : List FileWrite} (h : files root library mode resources = .ok shared) :
    lastContent (below root commonResource) shared =
      some (text (commonLines root (trim library) mode resources)) := by
  have hother (path : String) (hpath : path ≠ commonResource) :
      (below root path == below root commonResource) = false :=
    beq_eq_false_iff_ne.mpr fun heq ↦ hpath (below_injective heq)
  unfold files at h
  dsimp only at h
  split at h
  · cases h
  · obtain rfl := Except.ok.inj h
    simp only [lastContent_cons, hother "__init__.robot" (by decide),
      hother "requirements.txt" (by decide), beq_self_eq_true, if_true, Bool.false_eq_true,
      if_false]
    rfl

end SuiteMigration.Skeleton
