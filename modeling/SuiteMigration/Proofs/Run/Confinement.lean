import SuiteMigration.Proofs.Commit.LastBatch
import SuiteMigration.Proofs.Run.ResultTable

/-!
What a run leaves alone in a repository, whatever faults it meets and wherever it stops. All that a
run changes is the branch for its output, which it creates or writes to, and the records of commits
and pull requests. A run that is dry or has chosen no branch changes nothing at all.
-/

set_option autoImplicit false
set_option relaxedAutoImplicit false

namespace SuiteMigration.Repository

/-- The second store has the branches of the first, and the same files on all of them but one;
that one may be new. -/
structure Store.Confined (branch : String) (before after : Store) : Prop where
  lookup_eq : ∀ name, name ≠ branch → after.branches.lookup name = before.branches.lookup name
  kept : (before.branches.lookup branch).isSome → (after.branches.lookup branch).isSome

instance (branch : String) : IsPreorder Store (Store.Confined branch) where
  refl _ := ⟨fun _ _ ↦ rfl, fun h ↦ h⟩
  trans _ _ _ hfirst hsecond :=
    ⟨fun name hname ↦ (hsecond.lookup_eq name hname).trans (hfirst.lookup_eq name hname),
      fun h ↦ hsecond.kept (hfirst.kept h)⟩

theorem Store.Confined.of_branches_eq {branch : String} {before after : Store}
    (h : after.branches = before.branches) : Store.Confined branch before after :=
  ⟨fun _ _ ↦ by rw [h], fun hkept ↦ by rw [h]; exact hkept⟩

/-- Putting a tree under the name of a branch is all that happens to the branches. -/
theorem Store.Confined.of_insert {branch : String} {before after : Store} {tree : Tree}
    (h : after.branches = Assoc.insert branch tree before.branches) :
    Store.Confined branch before after := by
  refine ⟨fun name hname ↦ ?_, fun _ ↦ ?_⟩
  · rw [h, Assoc.lookup_insert_of_ne hname]
  · rw [h, Assoc.lookup_insert_self]
    rfl

theorem Store.commit_confined (s : Store) (files : List FileWrite) (message branch : String) :
    s.Confined branch (keepOnError s (s.commit files message branch)).2 := by
  unfold Store.commit
  split
  · exact refl_of (Store.Confined branch) s
  · exact .of_insert rfl

theorem Store.writeFiles_confined (s : Store) (files : List FileWrite) (message branch : String) :
    s.Confined branch (keepOnError s (s.writeFiles files message branch)).2 := by
  unfold Store.writeFiles
  split
  · exact s.commit_confined files message branch
  · exact refl_of (Store.Confined branch) s

theorem Store.createBranch_confined (s : Store) (name base : String) :
    s.Confined name (keepOnError s (s.createBranch name base)).2 := by
  unfold Store.createBranch
  split
  · exact refl_of (Store.Confined name) s
  · split
    · exact refl_of (Store.Confined name) s
    · exact .of_insert rfl

theorem Store.openPullRequest_confined (s : Store) (branch : String) (pull : PullRequest) :
    s.Confined branch (keepOnError s (s.openPullRequest pull)).2 := by
  unfold Store.openPullRequest
  split
  · exact .of_branches_eq rfl
  · exact refl_of (Store.Confined branch) s

theorem keepOnError_of_error {R α : Type} {r : R} {result : Except Error (α × R)} {e : Error}
    (h : (keepOnError r result).1 = .error e) : (keepOnError r result).2 = r := by
  cases result with
  | ok pair => cases h
  | error _ => rfl

/-! ### Faults -/

variable {R α : Type}

/-- Behind a fault nothing happens, and without one the operation does. -/
theorem Faulty.guarded_along {rel : R → R → Prop} [IsPreorder R rel] {f : Faulty R}
    (fault : Option Error) {operation : R → Except Error α × R}
    (h : rel f.inner (operation f.inner).2) : rel f.inner (f.guarded fault operation).2.inner := by
  cases fault with
  | some e => exact refl_of rel f.inner
  | none => exact h

/-- An operation that changes nothing when it fails does not do so behind a fault either. -/
theorem Faulty.guarded_of_error {f : Faulty R} {fault : Option Error}
    {operation : R → Except Error α × R} {e : Error}
    (hkept : ∀ e, (operation f.inner).1 = .error e → (operation f.inner).2 = f.inner)
    (h : (f.guarded fault operation).1 = .error e) :
    (f.guarded fault operation).2.inner = f.inner := by
  cases fault with
  | some _ => rfl
  | none => exact hkept e h

/-- The stores behind the faults differ on one branch at most. -/
def Faulty.Confined (branch : String) (f g : Faulty Store) : Prop :=
  f.inner.Confined branch g.inner

instance (branch : String) : IsPreorder (Faulty Store) (Faulty.Confined branch) where
  refl f := refl_of (Store.Confined branch) f.inner
  trans _ _ _ hfirst hsecond := trans_of (Store.Confined branch) hfirst hsecond

theorem Faulty.writeFile_confined (file : FileWrite) (message branch : String)
    (f : Faulty Store) : f.Confined branch (Repository.writeFile file message branch f).2 := by
  have hinner : f.nextWrite.2.inner.Confined branch (f.nextWrite.2.guarded f.nextWrite.1
      (Repository.writeFile file message branch)).2.inner :=
    Faulty.guarded_along _ (Store.commit_confined _ _ _ _)
  rwa [Faulty.nextWrite_inner] at hinner

theorem Faulty.writeFiles_confined (files : List FileWrite) (message branch : String)
    (f : Faulty Store) : f.Confined branch (Repository.writeFiles files message branch f).2 := by
  have hinner : f.nextWrite.2.inner.Confined branch (f.nextWrite.2.guarded f.nextWrite.1
      (Repository.writeFiles files message branch)).2.inner :=
    Faulty.guarded_along _ (Store.writeFiles_confined _ _ _ _)
  rwa [Faulty.nextWrite_inner] at hinner

theorem Faulty.createBranch_confined (name base : String) (f : Faulty Store) :
    f.Confined name (Repository.createBranch name base f).2 :=
  Faulty.guarded_along _ (Store.createBranch_confined _ _ _)

theorem Faulty.openPullRequest_confined (branch : String) (pull : PullRequest)
    (f : Faulty Store) : f.Confined branch (Repository.openPullRequest pull f).2 :=
  Faulty.guarded_along _ (Store.openPullRequest_confined _ _ _)

end SuiteMigration.Repository

namespace SuiteMigration.Run

open SuiteMigration.Repository

/-! ### Phases that change nothing -/

theorem listBranches_inner (f : Faulty Store) : (Repository.listBranches f).2.inner = f.inner :=
  (Faulty.guarded_along _ rfl : f.inner = _).symm

/-- Reads and listings use up faults, but the store behind them stays as it is. -/
theorem inner_readOnly : ReadOnly (Faulty.inner : Faulty Store → Store) where
  readFile path branch f := by
    have hinner : (f.nextRead path).2.inner = ((f.nextRead path).2.guarded (f.nextRead path).1
        (Repository.readFile path branch)).2.inner := Faulty.guarded_along _ rfl
    rw [Faulty.nextRead_inner] at hinner
    exact hinner.symm
  listFiles directory pattern branch f := by
    have hinner : f.nextListing.2.inner = (f.nextListing.2.guarded f.nextListing.1
        (Repository.listFiles directory pattern branch)).2.inner := Faulty.guarded_along _ rfl
    rw [Faulty.nextListing_inner] at hinner
    exact hinner.symm

/-- A dry run settles its files and opens no pull request. -/
theorem commitFiles_dry {request : Request} (hdry : request.dryRun = true) (observer : Observer)
    (policy : Commit.Policy) (branch : String) (items skeleton : List Commit.Item) :
    Along (SameView Faulty.inner)
      (commitFiles observer policy request branch items skeleton : Step (Faulty Store) Unit) := by
  refine (announce_sameView _ _ _ _).bind fun _ ↦ ?_
  rw [hdry]
  exact (settleDry_sameView items).bind fun _ ↦ enter_sameView _ _

theorem requestPull_dry {request : Request} (hdry : request.dryRun = true) (observer : Observer)
    (branch : String) :
    Along (SameView Faulty.inner)
      (requestPull observer request branch : Step (Faulty Store) Unit) := by
  refine Along.get_bind fun s ↦ ?_
  simp only [hdry, Bool.not_true, Bool.and_false, Bool.false_and]
  exact refl_of (SameView Faulty.inner) s

/-! ### Phases that write -/

/-- A step changes one branch at most, and chooses no other one for the output. -/
def Confined (branch : String) (s t : Session (Faulty Store)) : Prop :=
  s.repo.Confined branch t.repo ∧ t.status.branch = s.status.branch

instance (branch : String) : IsPreorder (Session (Faulty Store)) (Confined branch) where
  refl s := ⟨refl_of (Faulty.Confined branch) s.repo, rfl⟩
  trans _ _ _ hfirst hsecond :=
    ⟨trans_of (Faulty.Confined branch) hfirst.1 hsecond.1, hsecond.2.trans hfirst.2⟩

theorem Along.confined {α : Type} {branch : String} {m : Step (Faulty Store) α}
    (h : Along (SameView Faulty.inner) m) : Along (Confined branch) m :=
  h.mono fun _ _ hsame ↦ ⟨.of_branches_eq (by rw [hsame.1]), hsame.2⟩

theorem writeBatches_confined (observer : Observer) (policy : Commit.Policy) (branch : String)
    (batches : List (List Commit.Item)) :
    Along (Confined branch) (writeBatches observer policy branch batches) := by
  refine Along.get_bind fun s ↦ Along.set_bind ⟨?_, rfl⟩ ?_
  · exact Commit.commitFrom_along (fun file text f ↦ f.writeFile_confined file text branch)
      (fun files text f ↦ f.writeFiles_confined files text branch) _ _ _ _ _ _ _
  · exact (Along.forM (fun _ ↦ (notify_sameView observer _).confined) _).bind fun _ ↦ Along.pure _

theorem commitFiles_confined (observer : Observer) (policy : Commit.Policy) (request : Request)
    (branch : String) (items skeleton : List Commit.Item) :
    Along (Confined branch) (commitFiles observer policy request branch items skeleton) := by
  have henter : Along (Confined branch) (enter .committing 95 : Step (Faulty Store) Unit) :=
    (enter_sameView _ _).confined
  refine (announce_sameView _ _ _ _).confined.bind fun _ ↦ ?_
  dsimp only
  split
  · exact (settleDry_sameView items).confined.bind fun _ ↦ henter
  · split
    · exact (count_sameView _).confined.bind fun _ ↦ (writeBatches_confined _ _ _ _).bind
        fun outcomes ↦ (settleOutcomes_sameView outcomes).confined.bind fun _ ↦ henter
    · exact henter

theorem accessOr_confined {α : Type} {branch : String} (failure : Error → Failure)
    {operation : Faulty Store → Except Error α × Faulty Store}
    (h : ∀ f : Faulty Store, f.Confined branch (operation f).2) :
    Along (Confined branch) (accessOr failure operation) := by
  intro s
  rw [final, exec_accessOr]
  exact ⟨h s.repo, rfl⟩

theorem requestPull_confined (observer : Observer) (request : Request) (branch : String) :
    Along (Confined branch) (requestPull observer request branch) := by
  have hmodify (url : String) : Along (Confined branch) (modify fun s : Session (Faulty Store) ↦
      { s with status := { s.status with pullRequest := some url } }) :=
    Along.modify fun s ↦ ⟨refl_of (Faulty.Confined branch) s.repo, rfl⟩
  refine Along.get_bind fun s ↦ ?_
  dsimp only
  split
  · refine Along.bind (announce_sameView _ _ _ _).confined (fun _ ↦ ?_) s
    exact (accessOr_confined _ fun f ↦ f.openPullRequest_confined branch _).bind hmodify
  · exact refl_of (Confined branch) s

/-! ### The branch for the output -/

variable {settings : Settings} {request : Request} {branches : List String}
  {s : Session (Faulty Store)}

/-- The branch that is chosen may be new, but not in a dry run. -/
theorem prepareBranch_chosen {branch : String} {next : Session (Faulty Store)}
    (h : Yields (prepareBranch settings request branches) s branch next) :
    next.status.branch = some branch ∧ s.repo.Confined branch next.repo ∧
      (request.dryRun = true → next.repo.inner = s.repo.inner) := by
  unfold prepareBranch at h
  dsimp only at h
  generalize (if request.operation.isTransformationOnly = true then request.readBranch
    else request.targetBranch.getD settings.newBranch) = name at h
  split at h
  next hnew =>
    simp only [yields_bind, yields_accessOr, yields_modify, yields_pure] at h
    obtain ⟨_, _, ⟨_, rfl⟩, _, _, rfl, rfl, rfl⟩ := h
    refine ⟨rfl, s.repo.createBranch_confined _ _, fun hdry ↦ ?_⟩
    rw [hdry, Bool.not_true, Bool.and_false, Bool.false_and] at hnew
    cases hnew
  next =>
    simp only [yields_bind, yields_modify, yields_pure] at h
    obtain ⟨_, _, rfl, rfl, rfl⟩ := h
    exact ⟨rfl, refl_of (Faulty.Confined _) s.repo, fun _ ↦ rfl⟩

/-- A run that cannot create its branch has changed nothing. -/
theorem prepareBranch_stopped
    (h : ∀ branch next, ¬ Yields (prepareBranch settings request branches) s branch next) :
    SameView Faulty.inner s (final (prepareBranch settings request branches) s) := by
  unfold prepareBranch at h ⊢
  dsimp only at h ⊢
  generalize (if request.operation.isTransformationOnly = true then request.readBranch
    else request.targetBranch.getD settings.newBranch) = name at h ⊢
  -- once there is a branch, entering it cannot fail
  have henter (t : Session (Faulty Store)) :
      Yields (do
        modify fun s ↦ { s with status := { s.status with branch := some name } }
        return name) t name { t with status := { t.status with branch := some name } } :=
    yields_bind.mpr ⟨⟨⟩, _, yields_modify.mpr rfl, yields_pure.mpr ⟨rfl, rfl⟩⟩
  split
  next hnew =>
    rw [if_pos hnew] at h
    cases hcreate : (Repository.createBranch name request.sourceBranch s.repo).1 with
    | ok u =>
      exact (h _ _ (yields_bind.mpr
        ⟨u, _, yields_accessOr.mpr ⟨hcreate, rfl⟩, henter _⟩)).elim
    | error e =>
      rw [final, exec_bind, exec_accessOr, hcreate]
      exact ⟨Faulty.guarded_of_error (fun _ ↦ keepOnError_of_error) hcreate, rfl⟩
  next hold =>
    rw [if_neg hold] at h
    exact (h _ _ (henter s)).elim

/-! ### A whole run -/

/-- How a run may end: no branch is chosen and nothing is changed, or a branch is chosen and no
other one is changed; in a dry run nothing is changed in either case. -/
def Framed (request : Request) (s t : Session (Faulty Store)) : Prop :=
  (t.status.branch = none ∧ t.repo.inner = s.repo.inner) ∨
    ∃ branch, t.status.branch = some branch ∧ s.repo.Confined branch t.repo ∧
      (request.dryRun = true → t.repo.inner = s.repo.inner)

theorem Framed.of_sameView {s t : Session (Faulty Store)} (hbranch : s.status.branch = none)
    (h : SameView Faulty.inner s t) : Framed request s t :=
  Or.inl ⟨h.2.trans hbranch, h.1⟩

theorem process_framed (observer : Observer) (settings : Settings) (engine : Engine)
    (request : Request) (branches : List String) (files : List DiscoveredFile)
    (hbranch : s.status.branch = none) :
    Framed request s (final (process observer settings engine request branches files) s) := by
  refine final_bind_cases (fun hstop ↦ ?_) fun branch next hnext ↦ ?_
  · exact .of_sameView hbranch (prepareBranch_stopped hstop)
  · obtain ⟨hchosen, hprepared, hdry⟩ := prepareBranch_chosen hnext
    have hrest : Along (Confined branch) (do
        let loaded ← readFiles observer settings.reading files
        let items ← transformAll observer engine request branch loaded
        let skeleton ← skeletonItems observer engine request items
        commitFiles observer settings.committing request branch items skeleton
        requestPull observer request branch
        announce observer "Migration complete" .completed 100 : Step (Faulty Store) Unit) :=
      (readFiles_sameView inner_readOnly _ _ _).confined.bind fun _ ↦
        (transformAll_sameView inner_readOnly _ _ _ _ _).confined.bind fun _ ↦
          (skeletonItems_sameView _ _ _ _).confined.bind fun _ ↦
            (commitFiles_confined _ _ _ _ _ _).bind fun _ ↦
              (requestPull_confined _ _ _).bind fun _ ↦ (announce_sameView _ _ _ _).confined
    have hdryRest (hdry : request.dryRun = true) : Along (SameView Faulty.inner) (do
        let loaded ← readFiles observer settings.reading files
        let items ← transformAll observer engine request branch loaded
        let skeleton ← skeletonItems observer engine request items
        commitFiles observer settings.committing request branch items skeleton
        requestPull observer request branch
        announce observer "Migration complete" .completed 100 : Step (Faulty Store) Unit) :=
      (readFiles_sameView inner_readOnly _ _ _).bind fun _ ↦
        (transformAll_sameView inner_readOnly _ _ _ _ _).bind fun _ ↦
          (skeletonItems_sameView _ _ _ _).bind fun _ ↦
            (commitFiles_dry hdry _ _ _ _ _).bind fun _ ↦
              (requestPull_dry hdry _ _).bind fun _ ↦ announce_sameView _ _ _ _
    refine Or.inr ⟨branch, (hrest next).2.trans hchosen,
      trans_of (Faulty.Confined branch) hprepared (hrest next).1, fun h ↦ ?_⟩
    exact (hdryRest h next).1.trans (hdry h)

theorem execute_framed (observer : Observer) (settings : Settings) (engine : Engine)
    (request : Request) (hbranch : s.status.branch = none) :
    Framed request s (final (execute observer settings engine request) s) := by
  have haccess := validateAccess_sameView listBranches_inner observer request
  have hdiscover := discoverFiles_sameView inner_readOnly observer request
  refine final_bind_cases (P := Framed request s) (fun _ ↦ .of_sameView hbranch (haccess s))
    fun branches accessed haccessed ↦ ?_
  have hfirst := haccess.yields haccessed
  refine final_bind_cases (P := Framed request s)
    (fun _ ↦ .of_sameView hbranch (trans_of _ hfirst (hdiscover accessed)))
    fun found next hnext ↦ ?_
  have hsecond := trans_of (SameView Faulty.inner) hfirst (hdiscover.yields hnext)
  split
  · exact .of_sameView hbranch (trans_of _ hsecond (announce_sameView _ _ _ _ next))
  · have hframed := process_framed observer settings engine request branches found
      (hsecond.2.trans hbranch)
    unfold Framed Faulty.Confined at hframed ⊢
    rwa [hsecond.1] at hframed

/-- A run that discovers nothing does not come to choose a branch. -/
theorem execute_branch_eq_none {observer : Observer} (settings : Settings) (engine : Engine)
    {request : Request} (hbranch : s.status.branch = none) (hevents : s.events = [])
    (h : discoveredFiles observer request s.repo = []) :
    (final (execute observer settings engine request) s).status.branch = none := by
  have haccess := validateAccess_sameView listBranches_inner observer request
  have hdiscover := discoverFiles_sameView inner_readOnly observer request
  refine final_bind_cases (P := fun t ↦ t.status.branch = none)
    (fun _ ↦ (haccess s).2.trans hbranch) fun branches accessed haccessed ↦ ?_
  refine final_bind_cases (P := fun t ↦ t.status.branch = none)
    (fun _ ↦ (hdiscover accessed).2.trans ((haccess.yields haccessed).2.trans hbranch))
    fun found next hnext ↦ ?_
  have hnone : next.status.branch = none :=
    (hdiscover.yields hnext).2.trans ((haccess.yields haccessed).2.trans hbranch)
  obtain ⟨hobserver, hbranches, hcontains, rfl⟩ :=
    (validateAccess_yields observer request hevents).mp haccessed
  obtain ⟨hcall, hfound, _⟩ := (discoverFiles_yields observer request).mp hnext
  rw [discoveredFiles_eq (discovery?_eq_ok_iff.mpr
    ⟨hobserver, hcall, branches, hbranches, hcontains, hfound⟩)] at h
  subst h
  have hlast : Along (SameView Faulty.inner) (announce observer
      "No matching files found; nothing to do" .completed 100 : Step (Faulty Store) Unit) :=
    announce_sameView _ _ _ _
  exact (hlast next).2.trans hnone

/-- After a run every branch but the one of the response has the files that it had before, and no
branch is gone. A branch that is new is the one of the response. If the run is dry, has discovered
nothing or has chosen no branch, the repository is as it was, with its commits and pull requests.
All this holds whatever the faults of the repository, the replies of the assistant and the crashes
of the observer are. -/
theorem run_changes_only_its_branch (observer : Observer) (settings : Settings)
    (request : Request) (repo : Faulty Store) :
    let response := (run observer settings request repo).1
    let before := repo.inner
    let after := (run observer settings request repo).2.repo.inner
    (∀ name, response.status.branch ≠ some name →
        after.branches.lookup name = before.branches.lookup name) ∧
      Assoc.keys before.branches ⊆ Assoc.keys after.branches ∧
      (∀ name ∈ Assoc.keys after.branches, name ∉ Assoc.keys before.branches →
        response.status.branch = some name) ∧
      (request.dryRun = true ∨ discoveredFiles observer request repo = [] ∨
        response.status.branch = none → after = before) := by
  intro response before after
  have hchosen : response.status.branch =
      (endSession observer settings request repo).status.branch :=
    run_branch observer settings request repo
  have hframed : Framed request (startSession settings request repo)
      (endSession observer settings request repo) :=
    execute_framed observer settings (settings.engine request) request rfl
  have hnothing (h : discoveredFiles observer request repo = []) :
      (endSession observer settings request repo).status.branch = none :=
    execute_branch_eq_none settings (settings.engine request) rfl rfl h
  have hafter : after = (endSession observer settings request repo).repo.inner := rfl
  rw [hchosen, hafter]
  obtain ⟨hnone, hsame⟩ | ⟨branch, hbranch, hconfined, hdry⟩ := hframed
  · have hsame : (endSession observer settings request repo).repo.inner = before := hsame
    rw [hsame]
    exact ⟨fun _ _ ↦ rfl, fun _ h ↦ h, fun _ hmem hnot ↦ absurd hmem hnot, fun _ ↦ rfl⟩
  · have hkept (name : String) (hname : some branch ≠ some name) :=
      hconfined.lookup_eq name fun heq ↦ hname (congrArg some heq.symm)
    rw [hbranch] at hnothing ⊢
    refine ⟨hkept, fun name hmem ↦ ?_, fun name hmem hnot ↦ ?_, ?_⟩
    · rw [Assoc.mem_keys_iff] at hmem ⊢
      by_cases hname : name = branch
      · subst hname
        exact hconfined.kept hmem
      · rwa [hkept name fun heq ↦ hname (Option.some.inj heq).symm]
    · by_contra hname
      rw [Assoc.mem_keys_iff, hkept name hname] at hmem
      exact hnot (Assoc.mem_keys_iff.mpr hmem)
    · rintro (hset | hempty | hnone)
      · exact hdry hset
      · cases hnothing hempty
      · cases hnone

end SuiteMigration.Run
