import SuiteMigration.Proofs.Commit.Batching
import SuiteMigration.Proofs.Repository.Faults
import SuiteMigration.Proofs.Repository.Store

/-!
The last batch of a writing. Whatever became of the batches before it, if the last one is written
then its files are in the repository afterwards; and shared files are always in the last batch.
-/

set_option autoImplicit false
set_option relaxedAutoImplicit false

namespace SuiteMigration

namespace Repository

/-- A repository that keeps what is written: a write that succeeds puts its files onto the branch
and leaves the other files there as they were, and a pull request changes no file. -/
class Durable (R : Type) [Repository R] where
  file? : R → (branch path : String) → Option String
  writeFile_ok : ∀ {file : FileWrite} {message branch id : String} {r next : R},
    Repository.writeFile file message branch r = (.ok id, next) →
      ∀ path, file? next branch path = (lastContent path [file]).or (file? r branch path)
  writeFiles_ok : ∀ {files : List FileWrite} {message branch id : String} {r next : R},
    Repository.writeFiles files message branch r = (.ok id, next) →
      ∀ path, file? next branch path = (lastContent path files).or (file? r branch path)
  openPullRequest_file? : ∀ (pull : PullRequest) (r : R),
    file? (Repository.openPullRequest pull r).2 = file? r

/-- A commit that succeeds puts its files onto the branch. -/
theorem Store.file?_of_commit {s next : Store} {files : List FileWrite}
    {message branch id : String}
    (h : keepOnError s (s.commit files message branch) = (.ok id, next)) (path : String) :
    next.file? branch path = (lastContent path files).or (s.file? branch path) := by
  cases htree : s.branches.lookup branch with
  | none =>
    rw [Store.commit, htree] at h
    cases h
  | some tree =>
    obtain ⟨id', next', hcommit, hbranch, _⟩ := Store.commit_branch htree files message
    rw [hcommit] at h
    obtain rfl : next' = next := congrArg Prod.snd h
    rw [hbranch.file?, lookup_writeTree, Store.Branch.file? htree]

instance : Durable Store where
  file? := Store.file?
  writeFile_ok h := Store.file?_of_commit h
  writeFiles_ok {files message branch id r next} h := by
    change keepOnError r (r.writeFiles files message branch) = _ at h
    unfold Store.writeFiles at h
    split at h
    · exact Store.file?_of_commit h
    · cases h
  openPullRequest_file? pull r := by
    change Store.file? (keepOnError r (r.openPullRequest pull)).2 = _
    unfold Store.openPullRequest
    split <;> rfl

variable {R : Type} [Repository R] [Durable R]

instance : Durable (Faulty R) where
  file? f := Durable.file? f.inner
  writeFile_ok {file message branch id r next} h := by
    have hinner : Repository.writeFile file message branch r.nextWrite.2.inner =
        (.ok id, next.inner) := Faulty.guarded_ok h
    rw [Faulty.nextWrite_inner] at hinner
    exact Durable.writeFile_ok hinner
  writeFiles_ok {files message branch id r next} h := by
    have hinner : Repository.writeFiles files message branch r.nextWrite.2.inner =
        (.ok id, next.inner) := Faulty.guarded_ok h
    rw [Faulty.nextWrite_inner] at hinner
    exact Durable.writeFiles_ok hinner
  openPullRequest_file? pull r := by
    change Durable.file? (r.guarded r.faults.pullRequest _).2.inner = _
    cases r.faults.pullRequest with
    | some e => rfl
    | none => exact Durable.openPullRequest_file? pull r.inner

end Repository

namespace Commit

open SuiteMigration.Repository

/-! ### Written files -/

variable {R : Type} [Repository R] [Durable R]

theorem writeEach_ok {text branch : String} {files : List FileWrite} {repo next : R}
    {ids : List String} (h : writeEach text branch files repo = (.ok ids, next)) (path : String) :
    Durable.file? next branch path =
      (lastContent path files).or (Durable.file? repo branch path) := by
  induction files generalizing repo ids with
  | nil =>
    obtain ⟨_, rfl⟩ := Prod.mk.inj h
    rfl
  | cons file rest ih =>
    unfold writeEach at h
    split at h
    · cases h
    next id middle hwrite =>
      dsimp only at h
      rcases hrest : writeEach text branch rest middle with ⟨_ | others, last⟩
      · rw [hrest] at h
        cases h
      · rw [hrest] at h
        obtain rfl : last = next := congrArg Prod.snd h
        have hsingle : lastContent path [file] =
            if file.path == path then some file.content else none := by
          rw [lastContent_cons]
          rfl
        rw [ih hrest, Durable.writeFile_ok hwrite, hsingle, lastContent_cons, Option.or_assoc]

theorem writeBatch_ok {items : List Item} {text branch : String} {repo next : R}
    {ids : List String} (h : writeBatch items text branch repo = (.ok ids, next)) (path : String) :
    Durable.file? next branch path =
      (lastContent path (items.map Item.write)).or (Durable.file? repo branch path) := by
  unfold writeBatch at h
  dsimp only at h
  split at h
  · rcases hwrite : Repository.writeFiles (items.map Item.write) text branch repo with
      ⟨_ | id, last⟩
    · rw [hwrite] at h
      cases h
    · rw [hwrite] at h
      obtain rfl : last = next := congrArg Prod.snd h
      exact Durable.writeFiles_ok hwrite path
  · exact writeEach_ok h path

/-- The files of a batch that was written at the first or the second attempt are there. -/
theorem file?_of_commitBatch {policy : Policy} {branch path content : String}
    {index total now : Nat} {items : List Item} {repo : R}
    (hok : (commitBatch policy branch index total items repo now).1.isOk = true)
    (hpath : lastContent path (items.map Item.write) = some content) :
    Durable.file? (commitBatch policy branch index total items repo now).2 branch path =
      some content := by
  unfold commitBatch at hok ⊢
  dsimp only at hok ⊢
  split at hok
  next ids next hwrite =>
    dsimp only
    rw [writeBatch_ok hwrite, hpath, Option.some_or]
  next e next hwrite =>
    split at hok
    next htransient =>
      rcases hagain : writeBatch items (message index total items) branch next with
        ⟨_ | ids, last⟩
      · rw [hagain] at hok
        cases hok
      · rw [if_pos htransient]
        dsimp only
        rw [writeBatch_ok hagain, hpath, Option.some_or]
    next => cases hok

omit [Durable R] in
theorem commitFrom_ne_nil (policy : Policy) (stops : Nat → Bool) (branch : String)
    (total index : Nat) (items : List Item) (rest : List (List Item)) (repo : R) (now : Nat) :
    (commitFrom policy stops branch total index (items :: rest) repo now).1 ≠ [] := by
  unfold commitFrom
  dsimp only
  split <;> exact List.cons_ne_nil _ _

/-- The files of the last batch are there at the end, if it was written. -/
theorem file?_of_commitFrom {policy : Policy} {stops : Nat → Bool} {branch path content : String}
    {total index now : Nat} {batches : List (List Item)} {repo : R} {outcome : Outcome}
    (hlast : (commitFrom policy stops branch total index batches repo now).1.getLast? =
      some outcome)
    (hok : outcome.isOk = true)
    (hpath : lastContent path (outcome.items.map Item.write) = some content) :
    Durable.file? (commitFrom policy stops branch total index batches repo now).2.1 branch path =
      some content := by
  induction batches generalizing index repo now with
  | nil => cases hlast
  | cons items rest ih =>
    have hbatch (h : (commitBatch policy branch index total items repo now).1 = outcome) :
        Durable.file? (commitBatch policy branch index total items repo now).2 branch path =
          some content := by
      subst h
      rw [(commitBatch_about ..).2] at hpath
      exact file?_of_commitBatch hok hpath
    unfold commitFrom at hlast ⊢
    dsimp only at hlast ⊢
    split at hlast
    next hstop =>
      rw [if_pos hstop]
      exact hbatch (Option.some.inj hlast)
    next hgo =>
      rw [if_neg hgo]
      cases rest with
      | nil => exact hbatch (Option.some.inj hlast)
      | cons other others =>
        have hmore := commitFrom_ne_nil policy stops branch total (index + 1) other others
          (commitBatch policy branch index total items repo now).2
          (commitBatch policy branch index total items repo now).1.time
        rw [List.getLast?_cons_of_ne_nil hmore] at hlast
        exact ih hlast

/-! ### Batches -/

/-- Shared files are at the end of the last batch. -/
theorem getLast?_planBatches (items : List Item) {trailing : List Item}
    (htrailing : trailing ≠ []) (batchSize : Nat) :
    ∃ before, (planBatches items trailing batchSize).getLast? = some (before ++ trailing) := by
  have hlast (batches : List (List Item)) :
      ∃ before, (addToLast trailing batches).getLast? = some (before ++ trailing) := by
    fun_induction addToLast trailing batches with
    | case1 => exact ⟨[], rfl⟩
    | case2 last => exact ⟨last, rfl⟩
    | case3 batch rest hne ih =>
      obtain ⟨before, hbefore⟩ := ih
      exact ⟨before, by rw [List.getLast?_cons, hbefore]; rfl⟩
  unfold planBatches
  dsimp only
  rw [if_neg (by simpa using htrailing)]
  exact hlast _

end Commit

end SuiteMigration
