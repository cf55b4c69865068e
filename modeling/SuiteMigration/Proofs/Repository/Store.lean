import SuiteMigration.Commit.Writing
import SuiteMigration.Proofs.Assoc
import SuiteMigration.Repository.Store

/-!
What a repository in memory holds after files were written to one of its branches: at each path the
last content that was written there, and elsewhere what was there before. Writing to a branch that
exists never fails.
-/

set_option autoImplicit false
set_option relaxedAutoImplicit false

namespace SuiteMigration.Repository

/-- The content of the last file at a path. -/
def lastContent (path : String) (files : List FileWrite) : Option String :=
  (files.filter fun file ↦ file.path == path).getLast?.map FileWrite.content

theorem lastContent_cons (path : String) (file : FileWrite) (rest : List FileWrite) :
    lastContent path (file :: rest) =
      (lastContent path rest).or (if file.path == path then some file.content else none) := by
  unfold lastContent
  rw [List.filter_cons]
  split
  · rw [List.getLast?_cons]
    cases (rest.filter fun other ↦ other.path == path).getLast? <;> rfl
  · rw [Option.or_none]

theorem lastContent_append (path : String) (files others : List FileWrite) :
    lastContent path (files ++ others) = (lastContent path others).or (lastContent path files) := by
  induction files with
  | nil => exact Option.or_none.symm
  | cons file rest ih =>
    rw [List.cons_append, lastContent_cons, ih, lastContent_cons, Option.or_assoc]

theorem mem_of_lastContent {path content : String} {files : List FileWrite}
    (h : lastContent path files = some content) :
    ∃ file ∈ files, file.path = path ∧ file.content = content := by
  obtain ⟨file, hlast, rfl⟩ := Option.map_eq_some_iff.mp h
  obtain ⟨hmem, hpath⟩ := List.mem_filter.mp (List.mem_of_getLast? hlast)
  exact ⟨file, hmem, eq_of_beq hpath, rfl⟩

theorem lastContent_isSome {file : FileWrite} {files : List FileWrite} (h : file ∈ files) :
    (lastContent file.path files).isSome := by
  have hmem : file ∈ files.filter fun other ↦ other.path == file.path :=
    List.mem_filter.mpr ⟨h, beq_self_eq_true _⟩
  rw [lastContent, Option.isSome_map, List.getLast?_isSome]
  exact List.ne_nil_of_mem hmem

/-- A path has the last content that was written there, or what was there before. -/
theorem lookup_writeTree (tree : Tree) (files : List FileWrite) (path : String) :
    (writeTree tree files).lookup path = (lastContent path files).or (tree.lookup path) := by
  induction files generalizing tree with
  | nil => rfl
  | cons file rest ih =>
    have hstep : writeTree tree (file :: rest) =
      writeTree (Assoc.insert file.path file.content tree) rest := rfl
    rw [hstep, ih, lastContent_cons]
    by_cases hpath : file.path = path
    · subst hpath
      rw [Assoc.lookup_insert_self, if_pos (beq_self_eq_true _), Option.or_assoc]
      rfl
    · rw [Assoc.lookup_insert_of_ne (Ne.symm hpath), if_neg (by simpa using hpath), Option.or_none]

theorem writeTree_append (tree : Tree) (files others : List FileWrite) :
    writeTree tree (files ++ others) = writeTree (writeTree tree files) others :=
  List.foldl_append

/-- A branch of the store and the files on it. -/
def Store.Branch (s : Store) (branch : String) (tree : Tree) : Prop :=
  s.branches.lookup branch = some tree

theorem Store.Branch.file? {s : Store} {branch : String} {tree : Tree} (h : s.Branch branch tree)
    (path : String) : s.file? branch path = tree.lookup path := by
  rw [Store.file?, h]
  rfl

theorem Store.commit_branch {s : Store} {branch : String} {tree : Tree} (h : s.Branch branch tree)
    (files : List FileWrite) (message : String) :
    ∃ id next, s.commit files message branch = .ok (id, next) ∧
      next.Branch branch (writeTree tree files) ∧ next.multiFile = s.multiFile := by
  unfold Store.commit
  rw [h]
  exact ⟨_, _, rfl, Assoc.lookup_insert_self _ _ _, rfl⟩

theorem writeEach_branch {s : Store} {branch : String} {tree : Tree} (h : s.Branch branch tree)
    (message : String) (files : List FileWrite) :
    ∃ ids next, Commit.writeEach message branch files s = (.ok ids, next) ∧
      next.Branch branch (writeTree tree files) ∧ next.multiFile = s.multiFile := by
  induction files generalizing s tree with
  | nil => exact ⟨[], s, rfl, h, rfl⟩
  | cons file rest ih =>
    obtain ⟨id, middle, hcommit, hmiddle, hsame⟩ := Store.commit_branch h [file] message
    obtain ⟨ids, next, hrest, hnext, hlast⟩ := ih hmiddle
    have hwrite : Repository.writeFile file message branch s = (.ok id, middle) := by
      change keepOnError s (s.commit [file] message branch) = _
      rw [hcommit]
      rfl
    refine ⟨id :: ids, next, ?_, hnext, hlast.trans hsame⟩
    rw [Commit.writeEach, hwrite]
    dsimp only
    rw [hrest]
    rfl

theorem writeBatch_branch {s : Store} {branch : String} {tree : Tree} (h : s.Branch branch tree)
    (items : List Commit.Item) (message : String) :
    ∃ ids next, Commit.writeBatch items message branch s = (.ok ids, next) ∧
      next.Branch branch (writeTree tree (items.map Commit.Item.write)) := by
  unfold Commit.writeBatch
  dsimp only
  split
  next hmany =>
    obtain ⟨id, next, hcommit, hnext, _⟩ :=
      Store.commit_branch h (items.map Commit.Item.write) message
    refine ⟨[id], next, ?_, hnext⟩
    have hwrite : Repository.writeFiles (items.map Commit.Item.write) message branch s =
        (.ok id, next) := by
      have hmulti : s.multiFile = true := hmany
      change keepOnError s (s.writeFiles _ message branch) = _
      rw [Store.writeFiles, if_pos hmulti, hcommit]
      rfl
    rw [hwrite]
    rfl
  next =>
    obtain ⟨ids, next, hwrite, hnext, _⟩ := writeEach_branch h message (items.map Commit.Item.write)
    exact ⟨ids, next, hwrite, hnext⟩

/-- Batches for a branch that exists are all written, in their order. -/
theorem commitFrom_branch (policy : Commit.Policy) (stops : Nat → Bool) {s : Store}
    {branch : String} {tree : Tree} (h : s.Branch branch tree) (total index : Nat)
    (batches : List (List Commit.Item)) (now : Nat) :
    (∀ outcome ∈ (Commit.commitFrom policy stops branch total index batches s now).1,
      ∃ ids, outcome.result = .ok ids) ∧
      (Commit.commitFrom policy stops branch total index batches s now).2.1.Branch branch
        (writeTree tree
          (((Commit.commitFrom policy stops branch total index batches s now).1.flatMap
            Commit.Outcome.items).map Commit.Item.write)) := by
  induction batches generalizing s tree index now with
  | nil => exact ⟨by simp [Commit.commitFrom], h⟩
  | cons items rest ih =>
    obtain ⟨ids, next, hwrite, hnext⟩ :=
      writeBatch_branch h items (Commit.message index total items)
    have hbatch : Commit.commitBatch policy branch index total items s now =
        (⟨index, items, .ok ids, 1, now⟩, next) := by
      unfold Commit.commitBatch
      dsimp only
      rw [hwrite]
    unfold Commit.commitFrom
    rw [hbatch]
    dsimp only
    split
    · refine ⟨fun outcome houtcome ↦ ?_, ?_⟩
      · obtain rfl := List.mem_singleton.mp houtcome
        exact ⟨ids, rfl⟩
      · simpa using hnext
    · obtain ⟨hok, hlast⟩ := ih hnext (index + 1) now
      refine ⟨fun outcome houtcome ↦ ?_, ?_⟩
      · rcases List.mem_cons.mp houtcome with rfl | houtcome
        · exact ⟨ids, rfl⟩
        · exact hok outcome houtcome
      · rw [List.flatMap_cons, List.map_append, writeTree_append]
        exact hlast

end SuiteMigration.Repository
