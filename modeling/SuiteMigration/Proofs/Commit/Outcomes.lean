import SuiteMigration.Proofs.Commit.LastBatch

/-!
Outcomes of batches that are written to a branch in memory past a script of faults. An attempt fails
with the first fault that its calls meet. A batch has a second attempt if the first one fails in
passing, and its outcome is that of the last attempt. Where a batch is one commit, a batch that
fails leaves no trace, and the branch and the commits are those of the batches that were written.
-/

set_option autoImplicit false
set_option relaxedAutoImplicit false

namespace SuiteMigration.Commit

open SuiteMigration.Repository

/-! ### Faults -/

/-- The calls that an attempt at a batch makes: one where several files can be written at once. -/
def writeCalls (multiFile : Bool) (items : List Item) : Nat :=
  if multiFile then 1 else items.length

/-- The first fault that a number of calls meets, if any; it is the failure of the attempt. -/
def firstFault (calls : Nat) (script : List (Option Error)) : Option Error :=
  (script.take calls).findSome? id

/-- The entries of a script that are left for the calls after the first fault. -/
def pastFault (script : List (Option Error)) : List (Option Error) :=
  (script.dropWhile Option.isNone).tail

/-- The fault with which a batch fails: the one that its last attempt meets. -/
def lastFault (calls : Nat) (script : List (Option Error)) : Option Error :=
  (firstFault calls script).bind fun e ↦
    if e.isTransient then firstFault calls (pastFault script) else some e

theorem firstFault_succ (calls : Nat) (script : List (Option Error)) :
    firstFault (calls + 1) script = script.head?.join.or (firstFault calls script.tail) := by
  cases script with
  | nil => simp [firstFault]
  | cons fault rest => cases fault <;> rfl

theorem pastFault_of_head {script : List (Option Error)} {e : Error}
    (h : script.head?.join = some e) : pastFault script = script.tail := by
  cases script with
  | nil => cases h
  | cons fault rest =>
    obtain rfl : fault = some e := h
    rfl

theorem pastFault_of_not_head {script : List (Option Error)} (h : script.head?.join = none) :
    pastFault script = pastFault script.tail := by
  cases script with
  | nil => rfl
  | cons fault rest =>
    obtain rfl : fault = none := h
    rfl

/-! ### Attempts -/

variable {repo : Faulty Store} {branch : String} {tree : Tree}

/-- A commit behind the faults takes one entry of the script, which is its failure or lets it
through. -/
theorem guarded_commit_cases (h : repo.inner.Branch branch tree) (files : List FileWrite)
    (text : String) :
    (∃ e next, repo.faults.writes.head?.join = some e ∧
      repo.nextWrite.2.guarded repo.nextWrite.1
        (fun s ↦ keepOnError s (s.commit files text branch)) = (.error e, next) ∧
      next.faults.writes = repo.faults.writes.tail ∧ next.inner = repo.inner) ∨
    ∃ id next, repo.faults.writes.head?.join = none ∧
      repo.nextWrite.2.guarded repo.nextWrite.1
        (fun s ↦ keepOnError s (s.commit files text branch)) = (.ok id, next) ∧
      next.faults.writes = repo.faults.writes.tail ∧
      next.inner.Branch branch (writeTree tree files) ∧
      next.inner.multiFile = repo.inner.multiFile ∧
      next.inner.commits = repo.inner.commits ++
        [⟨commitId (repo.inner.commits.length + 1), branch, text, files.map FileWrite.path⟩] := by
  have hinner := repo.nextWrite_inner
  have hwrites := repo.nextWrite_writes
  rw [← Faulty.nextWrite_fst]
  cases repo.nextWrite.1 with
  | some e => exact Or.inl ⟨e, _, rfl, rfl, hwrites, hinner⟩
  | none =>
    refine Or.inr ?_
    unfold Faulty.guarded Faulty.through
    dsimp only
    rw [hinner, Store.commit, h]
    exact ⟨_, _, rfl, rfl, hwrites, Assoc.lookup_insert_self _ _ _, rfl, rfl⟩

/-- What an attempt at a batch comes to. It fails exactly if its calls meet a fault, and then with
the first one. Where the batch is one commit, a failure changes nothing. -/
inductive Attempted (branch text : String) (items : List Item) (tree : Tree)
    (before : Faulty Store) : Except Error (List String) → Faulty Store → Prop
  | failed {e : Error} {after : Faulty Store}
      (hfault : firstFault (writeCalls before.inner.multiFile items) before.faults.writes = some e)
      (hwrites : after.faults.writes = pastFault before.faults.writes)
      (hmulti : after.inner.multiFile = before.inner.multiFile)
      (hbranch : ∃ tree, after.inner.Branch branch tree)
      (hinner : before.inner.multiFile = true → after.inner = before.inner) :
      Attempted branch text items tree before (.error e) after
  | written {ids : List String} {after : Faulty Store}
      (hfault : firstFault (writeCalls before.inner.multiFile items) before.faults.writes = none)
      (hmulti : after.inner.multiFile = before.inner.multiFile)
      (hbranch : ∃ tree, after.inner.Branch branch tree)
      (hcommit : before.inner.multiFile = true →
        after.inner.Branch branch (writeTree tree (items.map Item.write)) ∧
        after.inner.commits = before.inner.commits ++
          [⟨commitId (before.inner.commits.length + 1), branch, text, items.map Item.path⟩]) :
      Attempted branch text items tree before (.ok ids) after

/-- Written one by one, files meet the script one entry after the other. -/
theorem writeEach_cases (h : repo.inner.Branch branch tree) (text : String)
    (files : List FileWrite) :
    ((∃ e next, firstFault files.length repo.faults.writes = some e ∧
        writeEach text branch files repo = (.error e, next) ∧
        next.faults.writes = pastFault repo.faults.writes) ∨
      ∃ ids next, firstFault files.length repo.faults.writes = none ∧
        writeEach text branch files repo = (.ok ids, next)) ∧
    (writeEach text branch files repo).2.inner.multiFile = repo.inner.multiFile ∧
    ∃ tree, (writeEach text branch files repo).2.inner.Branch branch tree := by
  induction files generalizing repo tree with
  | nil => exact ⟨Or.inr ⟨[], repo, rfl, rfl⟩, rfl, tree, h⟩
  | cons file rest ih =>
    rw [List.length_cons, firstFault_succ, writeEach]
    obtain ⟨e, next, hfault, hwrite, hwrites, hinner⟩ |
      ⟨id, middle, hfault, hwrite, hwrites, hbranch, hmulti, _⟩ :=
        guarded_commit_cases h [file] text
    · have hwrite : Repository.writeFile file text branch repo = (.error e, next) := hwrite
      rw [hwrite, hfault, Option.some_or, pastFault_of_head hfault]
      refine ⟨Or.inl ⟨e, next, rfl, rfl, hwrites⟩, congrArg Store.multiFile hinner, tree, ?_⟩
      rw [hinner]
      exact h
    · have hwrite : Repository.writeFile file text branch repo = (.ok id, middle) := hwrite
      rw [hwrite, hfault, Option.none_or, ← hwrites]
      dsimp only
      obtain ⟨hcases, hsame, hlast⟩ := ih hbranch
      refine ⟨?_, hsame.trans hmulti, hlast⟩
      obtain ⟨e, next, hrest, heach, hpast⟩ | ⟨ids, next, hrest, heach⟩ := hcases
      · rw [heach]
        refine Or.inl ⟨e, next, hrest, rfl, ?_⟩
        rw [hpast, hwrites, pastFault_of_not_head hfault]
      · rw [heach]
        exact Or.inr ⟨id :: ids, next, hrest, rfl⟩

theorem writeBatch_attempted (h : repo.inner.Branch branch tree) (items : List Item)
    (text : String) :
    Attempted branch text items tree repo (writeBatch items text branch repo).1
      (writeBatch items text branch repo).2 := by
  unfold writeBatch
  dsimp only
  split
  next hmany =>
    have hmulti : repo.inner.multiFile = true := hmany
    have hcalls : firstFault (writeCalls repo.inner.multiFile items) repo.faults.writes =
        repo.faults.writes.head?.join := by
      rw [hmulti]
      exact (firstFault_succ 0 _).trans (Option.or_none)
    have hfiles : Repository.writeFiles (items.map Item.write) text branch repo =
        repo.nextWrite.2.guarded repo.nextWrite.1
          fun s ↦ keepOnError s (s.commit (items.map Item.write) text branch) := by
      change repo.nextWrite.2.guarded repo.nextWrite.1 _ = _
      refine Faulty.guarded_congr ?_
      change keepOnError _ (repo.nextWrite.2.inner.writeFiles _ text branch) = _
      rw [Faulty.nextWrite_inner, Store.writeFiles, if_pos hmulti]
    rw [hfiles]
    obtain ⟨e, next, hfault, hwrite, hwrites, hinner⟩ |
      ⟨id, next, hfault, hwrite, hwrites, hbranch, hsame, hcommits⟩ :=
        guarded_commit_cases h (items.map Item.write) text
    · rw [hwrite]
      refine .failed (hcalls.trans hfault) ?_ ?_ ⟨tree, ?_⟩ fun _ ↦ hinner
      · rw [hwrites, pastFault_of_head hfault]
      · rw [hinner]
      · rw [hinner]
        exact h
    · rw [hwrite]
      refine .written (hcalls.trans hfault) hsame ⟨_, hbranch⟩ fun _ ↦ ⟨hbranch, ?_⟩
      rw [hcommits, List.map_map]
      rfl
  next hmany =>
    have hsingle : ¬repo.inner.multiFile = true := hmany
    have hcalls : writeCalls repo.inner.multiFile items = (items.map Item.write).length := by
      rw [writeCalls, if_neg hsingle, List.length_map]
    obtain ⟨hcases, hsame, hlast⟩ := writeEach_cases h text (items.map Item.write)
    rw [← hcalls] at hcases
    obtain ⟨e, next, hfault, heach, hpast⟩ | ⟨ids, next, hfault, heach⟩ := hcases
    · rw [heach] at hsame hlast ⊢
      exact .failed hfault hpast hsame hlast fun hmulti ↦ absurd hmulti hsingle
    · rw [heach] at hsame hlast ⊢
      exact .written hfault hsame hlast fun hmulti ↦ absurd hmulti hsingle

/-! ### Batches -/

/-- What a batch comes to with its attempts. -/
structure Settled (branch : String) (total : Nat) (tree : Tree) (before : Faulty Store)
    (outcome : Outcome) (after : Faulty Store) : Prop where
  attempts_eq : outcome.attempts =
    if (firstFault (writeCalls before.inner.multiFile outcome.items) before.faults.writes).any
      Error.isTransient then 2 else 1
  error_iff : ∀ e, outcome.result = .error e ↔
    lastFault (writeCalls before.inner.multiFile outcome.items) before.faults.writes = some e
  multiFile_eq : after.inner.multiFile = before.inner.multiFile
  exists_branch : ∃ tree, after.inner.Branch branch tree
  inner_eq : before.inner.multiFile = true → outcome.isOk = false → after.inner = before.inner
  committed : before.inner.multiFile = true → outcome.isOk = true →
    after.inner.Branch branch (writeTree tree (outcome.items.map Item.write)) ∧
    after.inner.commits = before.inner.commits ++
      [⟨commitId (before.inner.commits.length + 1), branch,
        message outcome.index total outcome.items, outcome.items.map Item.path⟩]

theorem commitBatch_settled (policy : Policy) (h : repo.inner.Branch branch tree)
    (index total : Nat) (items : List Item) (now : Nat) :
    Settled branch total tree repo (commitBatch policy branch index total items repo now).1
      (commitBatch policy branch index total items repo now).2 := by
  have hfirst := writeBatch_attempted h items (message index total items)
  unfold commitBatch
  dsimp only
  rcases hwrite : writeBatch items (message index total items) branch repo with ⟨e | ids, next⟩
  · rw [hwrite] at hfirst
    obtain ⟨hfault, hwrites, hmulti, ⟨between, hbranch⟩, hinner⟩ := hfirst
    dsimp only
    split
    next htransient =>
      -- the second attempt meets what the first one has left of the script
      have hsecond := writeBatch_attempted hbranch items (message index total items)
      have hlast : lastFault (writeCalls repo.inner.multiFile items) repo.faults.writes =
          firstFault (writeCalls next.inner.multiFile items) next.faults.writes := by
        rw [lastFault, hfault, Option.bind_some, if_pos htransient, hmulti, hwrites]
      have hattempts : 2 = if (firstFault (writeCalls repo.inner.multiFile items)
          repo.faults.writes).any Error.isTransient then 2 else 1 := by
        rw [hfault, Option.any_some, if_pos htransient]
      rcases hagain : writeBatch items (message index total items) branch next with
        ⟨e' | ids, last⟩
      · rw [hagain] at hsecond
        obtain ⟨hfault', _, hmulti', hbranch', hinner'⟩ := hsecond
        refine ⟨hattempts, fun _ ↦ ?_, hmulti'.trans hmulti, hbranch', fun hmany _ ↦ ?_, nofun⟩
        · rw [hlast, hfault']
          simp
        · exact (hinner' (hmulti.trans hmany)).trans (hinner hmany)
      · rw [hagain] at hsecond
        obtain _ | ⟨hfault', hmulti', hbranch', hcommit'⟩ := hsecond
        refine ⟨hattempts, fun _ ↦ ?_, hmulti'.trans hmulti, hbranch', nofun, fun hmany _ ↦ ?_⟩
        · rw [hlast, hfault']
          simp
        · have hsame := hinner hmany
          obtain rfl : between = tree := by
            rw [hsame] at hbranch
            exact Option.some.inj (hbranch.symm.trans h)
          rw [← hsame]
          exact hcommit' (hmulti.trans hmany)
    next hlasting =>
      refine ⟨?_, fun _ ↦ ?_, hmulti, ⟨between, hbranch⟩, fun hmany _ ↦ hinner hmany, nofun⟩
      · rw [hfault, Option.any_some, if_neg hlasting]
      · rw [lastFault, hfault, Option.bind_some, if_neg hlasting]
        simp
  · rw [hwrite] at hfirst
    obtain _ | ⟨hfault, hmulti, hbranch, hcommit⟩ := hfirst
    refine ⟨?_, fun _ ↦ ?_, hmulti, hbranch, nofun, fun hmany _ ↦ hcommit hmany⟩
    · rw [hfault]
      rfl
    · rw [lastFault, hfault]
      simp

theorem commitBatch_written {policy : Policy} {index total now : Nat} {items : List Item}
    {outcome : Outcome} {after : Faulty Store}
    (hbatch : commitBatch policy branch index total items repo now = (outcome, after))
    (hok : outcome.isOk = true) {item : Item} (hitem : item ∈ items) :
    after.inner.file? branch item.path = lastContent item.path (items.map Item.write) := by
  have hsome := lastContent_isSome (List.mem_map_of_mem (f := Item.write) hitem)
  obtain ⟨content, hcontent⟩ := Option.isSome_iff_exists.mp hsome
  have hpath : lastContent item.path (items.map Item.write) = some content := hcontent
  have hwritten : (commitBatch policy branch index total items repo now).1.isOk = true := by
    rw [hbatch]
    exact hok
  have hfile := file?_of_commitBatch hwritten hpath
  rw [hbatch] at hfile
  rw [hpath]
  exact hfile

/-! ### Lists of batches -/

/-- The repository after the first batches of a list that are written to a branch. -/
def repositoryAfter (policy : Policy) (branch : String) (batches : List (List Item))
    (repo : Faulty Store) (now count : Nat) : Faulty Store :=
  (commitFrom policy (fun _ ↦ false) branch batches.length 0 (batches.take count) repo now).2.1

/-- The commits of the batches that were written, counted on from a number. -/
def recordsOf (branch : String) (total number : Nat) (outcomes : List Outcome) :
    List CommitRecord :=
  (outcomes.filter Outcome.isOk).mapIdx fun i outcome ↦
    ⟨commitId (number + i + 1), branch, message outcome.index total outcome.items,
      outcome.items.map Item.path⟩

/-- The files of the batches that were written. -/
def writtenFiles (outcomes : List Outcome) : List FileWrite :=
  ((outcomes.filter Outcome.isOk).flatMap Outcome.items).map Item.write

section Written

variable {outcome : Outcome} (outcomes : List Outcome)

theorem writtenFiles_cons_ok (h : outcome.isOk = true) :
    writtenFiles (outcome :: outcomes) =
      outcome.items.map Item.write ++ writtenFiles outcomes := by
  rw [writtenFiles, List.filter_cons_of_pos h, List.flatMap_cons, List.map_append]
  rfl

theorem recordsOf_cons_ok (h : outcome.isOk = true) (branch : String) (total number : Nat) :
    recordsOf branch total number (outcome :: outcomes) =
      ⟨commitId (number + 1), branch, message outcome.index total outcome.items,
        outcome.items.map Item.path⟩ :: recordsOf branch total (number + 1) outcomes := by
  rw [recordsOf, List.filter_cons_of_pos h, List.mapIdx_cons]
  refine congrArg _ (congrArg (List.mapIdx · _) ?_)
  funext i written
  rw [Nat.add_right_comm number 1 i, Nat.add_assoc number i 1]

theorem writtenFiles_cons_failed (h : outcome.isOk = false) :
    writtenFiles (outcome :: outcomes) = writtenFiles outcomes := by
  rw [writtenFiles, List.filter_cons_of_neg (Bool.eq_false_iff.mp h)]
  rfl

theorem recordsOf_cons_failed (h : outcome.isOk = false) (branch : String) (total number : Nat) :
    recordsOf branch total number (outcome :: outcomes) =
      recordsOf branch total number outcomes := by
  rw [recordsOf, List.filter_cons_of_neg (Bool.eq_false_iff.mp h)]
  rfl

end Written

theorem commitFrom_cons (policy : Policy) (branch : String) (total index : Nat)
    (items : List Item) (rest : List (List Item)) (repo : Faulty Store) (now : Nat) :
    commitFrom policy (fun _ ↦ false) branch total index (items :: rest) repo now =
      let batch := commitBatch policy branch index total items repo now
      let later := commitFrom policy (fun _ ↦ false) branch total (index + 1) rest batch.2
        batch.1.time
      (batch.1 :: later.1, later.2) :=
  rfl

/-- Every batch is written to what the batches before it have left. -/
theorem commitFrom_getElem? (policy : Policy) (branch : String) (total index : Nat)
    (batches : List (List Item)) (repo : Faulty Store) (now : Nat) {i : Nat} {outcome : Outcome}
    (h : (commitFrom policy (fun _ ↦ false) branch total index batches repo now).1[i]? =
      some outcome) :
    ∃ time, commitBatch policy branch (index + i) total outcome.items
        (commitFrom policy (fun _ ↦ false) branch total index (batches.take i) repo now).2.1 time =
      (outcome,
        (commitFrom policy (fun _ ↦ false) branch total index (batches.take (i + 1)) repo
          now).2.1) := by
  induction batches generalizing index repo now i with
  | nil => cases h
  | cons items rest ih =>
    cases i with
    | zero =>
      have houtcome : (commitBatch policy branch index total items repo now).1 = outcome :=
        Option.some.inj h
      have hitems : outcome.items = items := houtcome ▸ (commitBatch_about ..).2
      rw [hitems]
      exact ⟨now, Prod.ext houtcome rfl⟩
    | succ i =>
      have hindex : index + (i + 1) = index + 1 + i := by omega
      rw [hindex]
      exact ih (index + 1) _ _ h

/-- A branch that is written to stays, and so does the mode of the repository. -/
theorem commitFrom_keeps (policy : Policy) (h : repo.inner.Branch branch tree) (total index : Nat)
    (batches : List (List Item)) (now : Nat) :
    let after := (commitFrom policy (fun _ ↦ false) branch total index batches repo now).2.1
    after.inner.multiFile = repo.inner.multiFile ∧ ∃ tree, after.inner.Branch branch tree := by
  induction batches generalizing repo tree index now with
  | nil => exact ⟨rfl, tree, h⟩
  | cons items rest ih =>
    have hsettled := commitBatch_settled policy h index total items now
    obtain ⟨_, hbranch⟩ := hsettled.exists_branch
    obtain ⟨hmulti, hlast⟩ := ih hbranch (index + 1)
      (commitBatch policy branch index total items repo now).1.time
    exact ⟨hmulti.trans hsettled.multiFile_eq, hlast⟩

/-- Where a batch is one commit, the branch and the commits are those of the written batches. -/
theorem commitFrom_committed (policy : Policy) (h : repo.inner.Branch branch tree)
    (hmulti : repo.inner.multiFile = true) (total index : Nat) (batches : List (List Item))
    (now : Nat) :
    let result := commitFrom policy (fun _ ↦ false) branch total index batches repo now
    result.2.1.inner.Branch branch (writeTree tree (writtenFiles result.1)) ∧
      result.2.1.inner.commits = repo.inner.commits ++
        recordsOf branch total repo.inner.commits.length result.1 := by
  induction batches generalizing repo tree index now with
  | nil => exact ⟨h, (List.append_nil _).symm⟩
  | cons items rest ih =>
    have hsettled := commitBatch_settled policy h index total items now
    have hsame : (commitBatch policy branch index total items repo now).2.inner.multiFile = true :=
      hsettled.multiFile_eq.trans hmulti
    dsimp only
    rw [commitFrom_cons]
    cases hok : (commitBatch policy branch index total items repo now).1.isOk with
    | true =>
      obtain ⟨hbranch, hcommits⟩ := hsettled.committed hmulti hok
      obtain ⟨hlast, hrecords⟩ := ih hbranch hsame (index + 1)
        (commitBatch policy branch index total items repo now).1.time
      refine ⟨?_, ?_⟩
      · rw [writtenFiles_cons_ok _ hok, writeTree_append]
        exact hlast
      · rw [hrecords, hcommits, recordsOf_cons_ok _ hok, List.length_append, List.append_assoc]
        rfl
    | false =>
      have hinner := hsettled.inner_eq hmulti hok
      have hbranch : (commitBatch policy branch index total items repo now).2.inner.Branch branch
          tree := hinner ▸ h
      obtain ⟨hlast, hrecords⟩ := ih hbranch hsame (index + 1)
        (commitBatch policy branch index total items repo now).1.time
      rw [writtenFiles_cons_failed _ hok, recordsOf_cons_failed _ hok, ← hinner]
      exact ⟨hlast, hrecords⟩

/-- The outcomes of batches that are written to a branch past a script of faults. There is one
outcome for each batch, in order. A batch is tried twice exactly if the first fault that its first
attempt meets is one that passes, and it fails with the fault that its last attempt meets, if any.
After a batch that was written every path of it holds its last content. Where several files can be
written at once, a batch that fails changes nothing, and in the end the branch holds the files of
the written batches on top of what it held before, with one commit for each of them. -/
theorem batches_settled (policy : Policy) (branch : String) (batches : List (List Item))
    (repo : Faulty Store) (tree : Tree) (now : Nat) (hbranch : repo.inner.Branch branch tree) :
    let result := commitBatches policy (fun _ ↦ false) branch batches repo now
    let after := repositoryAfter policy branch batches repo now
    result.1.map Outcome.items = batches ∧ after 0 = repo ∧ after batches.length = result.2.1 ∧
    (∀ i outcome, result.1[i]? = some outcome →
      let calls := writeCalls repo.inner.multiFile outcome.items
      let script := (after i).faults.writes
      outcome.index = i ∧
      outcome.attempts = (if (firstFault calls script).any Error.isTransient then 2 else 1) ∧
      (∀ e, outcome.result = .error e ↔ lastFault calls script = some e) ∧
      (outcome.isOk = true → ∀ item ∈ outcome.items,
        (after (i + 1)).inner.file? branch item.path =
          lastContent item.path (outcome.items.map Item.write)) ∧
      (repo.inner.multiFile = true → outcome.isOk = false →
        (after (i + 1)).inner = (after i).inner)) ∧
    (repo.inner.multiFile = true →
      result.2.1.inner.Branch branch (writeTree tree (writtenFiles result.1)) ∧
      result.2.1.inner.commits = repo.inner.commits ++
        recordsOf branch batches.length repo.inner.commits.length result.1) := by
  intro result after
  refine ⟨commitFrom_items policy _ branch batches.length batches 0 repo now fun _ _ ↦ rfl, rfl, ?_,
    fun i outcome houtcome ↦ ?_,
    fun hmulti ↦ commitFrom_committed policy hbranch hmulti batches.length 0 batches now⟩
  · dsimp only [after, result, repositoryAfter, commitBatches]
    rw [List.take_length]
  · obtain ⟨hmulti, before, hbefore⟩ :=
      commitFrom_keeps policy hbranch batches.length 0 (batches.take i) now
    obtain ⟨time, hbatch⟩ :=
      commitFrom_getElem? policy branch batches.length 0 batches repo now houtcome
    have hsettled := commitBatch_settled policy hbefore (0 + i) batches.length outcome.items time
    rw [hbatch] at hsettled
    obtain ⟨hattempts, herror, _, _, hinner, _⟩ := hsettled
    dsimp only at hattempts herror hinner
    rw [hmulti] at hattempts herror hinner
    refine ⟨?_, hattempts, herror, fun hok item hitem ↦ commitBatch_written hbatch hok hitem,
      hinner⟩
    rw [commitFrom_index policy _ branch batches.length batches 0 repo now i outcome houtcome,
      Nat.zero_add]

/-- A batch that runs into a timeout is written at its second attempt, and a batch that is refused
does not keep the next one from being written. -/
theorem batches_settled_past_faults :
    let item (path : String) : Item := ⟨path, "*** Settings ***\n", .resource, none⟩
    let store : Store := .ofBranch "main" [("README", "about")] true
    let writes := [some ⟨.timeout, "no answer"⟩, none, some ⟨.auth, "401"⟩]
    let repo : Faulty Store := ⟨store, { writes }⟩
    let batches :=
      [[item "a.resource", item "b.resource"], [item "c.resource"], [item "d.resource"]]
    let result := commitBatches {} (fun _ ↦ false) "main" batches repo 0
    store.Branch "main" [("README", "about")] ∧
      result.1.map Outcome.attempts = [2, 1, 1] ∧ result.1.map Outcome.isOk = [true, false, true] ∧
      result.2.1.inner.Branch "main" (writeTree [("README", "about")]
        ([item "a.resource", item "b.resource", item "d.resource"].map Item.write)) ∧
      result.2.1.inner.commits.map CommitRecord.paths =
        [["a.resource", "b.resource"], ["d.resource"]] := by
  intro item store writes repo batches result
  have hbranch : store.Branch "main" [("README", "about")] := rfl
  obtain ⟨_, _, _, _, hcommitted⟩ :=
    batches_settled {} "main" batches repo [("README", "about")] 0 hbranch
  obtain ⟨hlast, hcommits⟩ := hcommitted rfl
  refine ⟨hbranch, by decide +kernel, by decide +kernel, hlast, ?_⟩
  rw [hcommits]
  rfl

end SuiteMigration.Commit
