import SuiteMigration.Proofs.Repository.Store
import SuiteMigration.Proofs.Run.Phases
import SuiteMigration.Proofs.Run.ResultTable

/-!
Runs over a repository in memory. Listing, reading and pull requests leave its branches alone, so
only the preparation of the branch for the output and the writing of batches change them; and what
is read are the texts that the branch of the sources has from the start.
-/

set_option autoImplicit false
set_option relaxedAutoImplicit false

namespace SuiteMigration.Run

open SuiteMigration.Repository

/-- The branches and the branch for the output are the same. -/
def SameBranches (s t : Session Store) : Prop :=
  t.repo.branches = s.repo.branches ∧ t.status.branch = s.status.branch

instance : IsPreorder (Session Store) SameBranches where
  refl _ := ⟨rfl, rfl⟩
  trans _ _ _ hfirst hsecond := ⟨hsecond.1.trans hfirst.1, hsecond.2.trans hfirst.2⟩

/-- A step that keeps what a view of the branches shows keeps the branches. -/
theorem Along.sameBranches {α : Type} {m : Step Store α}
    (h : Along (SameView Store.branches) m) : Along SameBranches m :=
  h

theorem notify_sameBranches (observer : Observer) (event : Event) :
    Along SameBranches (notify observer event) :=
  (notify_sameView observer event).sameBranches

theorem enter_sameBranches (phase : Phase) (percent : Nat) :
    Along SameBranches (enter phase percent) :=
  (enter_sameView phase percent).sameBranches

theorem announce_sameBranches (observer : Observer) (message : String) (phase : Phase)
    (percent : Nat) : Along SameBranches (announce observer message phase percent) :=
  (announce_sameView observer message phase percent).sameBranches

theorem count_sameBranches (update : Summary → Summary) : Along SameBranches (count update) :=
  (count_sameView update).sameBranches

theorem settleOutcomes_sameBranches (outcomes : List Commit.Outcome) :
    Along SameBranches (settleOutcomes outcomes) :=
  (settleOutcomes_sameView outcomes).sameBranches

theorem openPullRequest_branches (request : PullRequest) (s : Store) :
    (Repository.openPullRequest request s).2.branches = s.branches := by
  change (keepOnError s (s.openPullRequest request)).2.branches = _
  unfold Store.openPullRequest
  split <;> rfl

theorem requestPull_sameBranches (observer : Observer) (request : Request) (branch : String) :
    Along SameBranches (requestPull observer request branch) :=
  (requestPull_sameView openPullRequest_branches observer request branch).sameBranches

theorem branches_readOnly : ReadOnly Store.branches :=
  ⟨fun _ _ _ ↦ rfl, fun _ _ _ _ ↦ rfl⟩

/-! ### Discovery -/

theorem searchAll_store (request : Request) (found : Assoc Role) (searches : List Search)
    (store : Store) : (searchAll request found searches store).2 = store := by
  induction searches generalizing found with
  | nil => rfl
  | cons search rest ih =>
    unfold searchAll
    split
    next hlist =>
      obtain rfl := congrArg Prod.snd hlist
      exact ih _
    next hlist => exact (congrArg Prod.snd hlist).symm

theorem discover_store (request : Request) (store : Store) :
    (discover request store).2 = store :=
  searchAll_store request [] request.searches store

/-- Discovered files are on the branch that is read. -/
theorem discover_branch {R : Type} [Repository R] {request : Request} {repo : R}
    {found : List DiscoveredFile} (h : (discover request repo).1 = .ok found) :
    ∀ file ∈ found, file.branch = request.readBranch := by
  obtain ⟨pairs, _, rfl⟩ := exists_found_of_discover h
  intro file hfile
  obtain ⟨pair, _, rfl⟩ := List.mem_map.mp hfile
  rfl

/-! ### The branch for the output -/

theorem branch_of_contains {store : Store} {branch : String}
    (h : (Assoc.keys store.branches).contains branch = true) :
    ∃ tree, store.Branch branch tree := by
  rw [List.contains_iff_mem, Assoc.mem_keys_iff] at h
  exact Option.isSome_iff_exists.mp h

/-- A created branch is a copy of its base, and nothing else is changed. -/
theorem createBranch_ok {store : Store} {name base : String}
    (h : (Repository.createBranch name base store).1 = .ok ()) :
    ∃ tree, store.Branch base tree ∧ (Repository.createBranch name base store).2 =
      { store with branches := Assoc.insert name tree store.branches } := by
  change (keepOnError store (store.createBranch name base)).1 = _ at h
  change ∃ tree, _ ∧ (keepOnError store (store.createBranch name base)).2 = _
  unfold Store.createBranch at h ⊢
  split
  next hexists =>
    rw [if_pos hexists] at h
    cases h
  next hnew =>
    rw [if_neg hnew] at h
    cases hbase : store.branches.lookup base with
    | none =>
      rw [hbase] at h
      cases h
    | some tree => exact ⟨tree, hbase, rfl⟩

/-- A created branch is there, and the others are as they were. -/
theorem createBranch_store {store : Store} {name base : String}
    (h : (Repository.createBranch name base store).1 = .ok ()) :
    (∃ tree, (Repository.createBranch name base store).2.Branch name tree) ∧
      ∀ other, other ≠ name → (Repository.createBranch name base store).2.branches.lookup other =
        store.branches.lookup other := by
  obtain ⟨tree, _, hcreated⟩ := createBranch_ok h
  rw [hcreated]
  exact ⟨⟨tree, Assoc.lookup_insert_self _ _ _⟩,
    fun other hother ↦ Assoc.lookup_insert_of_ne hother _ _⟩

/-- The branch for the output of a migration is there once it is prepared, and the branch of the
sources is as it was. -/
theorem prepareBranch_store {settings : Settings} {request : Request} {branches : List String}
    {s next : Session Store} {branch : String} (hoperation : request.operation = .migration)
    (hdry : request.dryRun = false) (hbranches : branches = Assoc.keys s.repo.branches)
    (hread : branches.contains request.readBranch = true)
    (h : Yields (prepareBranch settings request branches) s branch next) :
    next.status.branch = some branch ∧ (∃ tree, next.repo.Branch branch tree) ∧
      next.repo.branches.lookup request.readBranch = s.repo.branches.lookup request.readBranch ∧
      next.assistant = s.assistant := by
  have hmigration : request.operation.isTransformationOnly = false := by rw [hoperation]; rfl
  unfold prepareBranch at h
  simp only [hmigration, hdry, Bool.false_eq_true, if_false, Bool.not_false, Bool.true_and] at h
  split at h
  next hnew =>
    simp only [yields_bind, yields_accessOr, yields_modify, yields_pure] at h
    obtain ⟨_, _, ⟨hcreate, rfl⟩, _, _, rfl, rfl, rfl⟩ := h
    obtain ⟨hbranch, hothers⟩ := createBranch_store hcreate
    refine ⟨rfl, hbranch, hothers _ ?_, rfl⟩
    rintro heq
    rw [heq] at hread
    rw [hread] at hnew
    cases hnew
  next hold =>
    simp only [yields_bind, yields_modify, yields_pure] at h
    obtain ⟨_, _, rfl, rfl, rfl⟩ := h
    refine ⟨rfl, branch_of_contains ?_, rfl, rfl⟩
    rw [← hbranches]
    simpa using hold

/-! ### Reading -/

/-- The files that can be read, with their texts. -/
def sourceTexts (store : Store) (files : List DiscoveredFile) : List (DiscoveredFile × String) :=
  files.filterMap fun file ↦
    (store.readFile file.path (some file.branch)).toOption.map fun text ↦ (file, text)

theorem readFile_congr {store other : Store} {branch : String}
    (h : other.branches.lookup branch = store.branches.lookup branch) (path : String) :
    other.readFile path (some branch) = store.readFile path (some branch) := by
  have hname (s : Store) : s.branchName (some branch) = .ok branch := rfl
  have hfile : other.file? branch path = store.file? branch path := by
    rw [Store.file?, Store.file?, h]
  rw [Store.readFile, Store.readFile, hname, hname]
  dsimp only [bind, Except.bind]
  rw [hfile]

theorem sourceTexts_congr {store other : Store} {branch : String}
    (h : other.branches.lookup branch = store.branches.lookup branch)
    {files : List DiscoveredFile} (hfiles : ∀ file ∈ files, file.branch = branch) :
    sourceTexts other files = sourceTexts store files := by
  refine List.filterMap_congr fun file hfile ↦ ?_
  rw [hfiles file hfile, readFile_congr h]

theorem collectRead_yields {R : Type} {outcomes : List Reading.Outcome} {s next : Session R}
    {loaded : List (DiscoveredFile × String)} (h : Yields (collectRead outcomes) s loaded next) :
    loaded = outcomes.filterMap (fun o ↦ o.result.toOption.map fun text ↦ (o.file, text)) ∧
      ∃ entries summary, next = { s with entries, summary } := by
  induction outcomes generalizing s loaded with
  | nil =>
    obtain ⟨rfl, rfl⟩ := yields_pure.mp h
    exact ⟨rfl, s.entries, s.summary, rfl⟩
  | cons outcome rest ih =>
    rw [List.filterMap_cons]
    unfold collectRead at h
    split at h
    next content hresult =>
      obtain ⟨others, _, hrest, hlast⟩ := yields_bind.mp h
      obtain ⟨rfl, rfl⟩ := yields_pure.mp hlast
      obtain ⟨hloaded, hnext⟩ := ih hrest
      rw [hresult, hloaded]
      exact ⟨rfl, hnext⟩
    next e hresult =>
      simp only [yields_bind, yields_count, yields_resolve] at h
      obtain ⟨_, _, rfl, _, _, rfl, hrest⟩ := h
      obtain ⟨hloaded, entries, summary, hnext⟩ := ih hrest
      rw [hresult]
      exact ⟨hloaded, entries, summary, hnext⟩

/-- Reading gives the texts of all files that are there. -/
theorem readFiles_store {observer : Observer} {policy : Reading.Policy}
    {files : List DiscoveredFile} {s next : Session Store}
    {loaded : List (DiscoveredFile × String)}
    (h : Yields (readFiles observer policy files) s loaded next) :
    loaded = sourceTexts s.repo files ∧ SameBranches s next ∧ next.assistant = s.assistant := by
  simp only [readFiles, yields_bind, yields_announce, yields_enter] at h
  obtain ⟨_, _, ⟨_, rfl⟩, outcomes, _, hpool, _, _, rfl, hcollect⟩ := h
  obtain ⟨hloaded, entries, summary, rfl⟩ := collectRead_yields hcollect
  obtain ⟨stops, hdone, houtcomes, rfl⟩ := readPool_yields hpool
  have hfiles := (Reading.readAll_accounts policy stops files s.repo s.now).1.outcomes hdone
  have hfaithful : (Reading.readAll policy stops files s.repo s.now).Faithful s.repo :=
    Reading.readAll_faithful (fun _ _ ↦ rfl) policy stops files s.now
  refine ⟨?_, ⟨congrArg Store.branches hfaithful.repo_eq, rfl⟩, rfl⟩
  calc
    loaded = outcomes.filterMap fun o ↦ (s.repo.readFile o.file.path
        (some o.file.branch)).toOption.map fun text ↦ (o.file, text) := by
      rw [hloaded]
      refine List.filterMap_congr fun o ho ↦ ?_
      rw [hfaithful.outcome (houtcomes ▸ ho)]
      rfl
    _ = sourceTexts s.repo (outcomes.map Reading.Outcome.file) := by
      rw [sourceTexts, List.filterMap_map]
      rfl
    _ = sourceTexts s.repo files := by
      rw [← houtcomes]
      exact congrArg _ hfiles

/-! ### Writing -/

/-- Writing to a branch that exists puts the files of all batches there, in their order. -/
theorem writeBatches_store {observer : Observer} {policy : Commit.Policy} {branch : String}
    {batches : List (List Commit.Item)} {s next : Session Store} {outcomes : List Commit.Outcome}
    {tree : Tree} (htree : s.repo.Branch branch tree)
    (h : Yields (writeBatches observer policy branch batches) s outcomes next) :
    next.repo.Branch branch (writeTree tree (batches.flatten.map Commit.Item.write)) ∧
      next.status = s.status := by
  have hitems : outcomes.flatMap Commit.Outcome.items = batches.flatten := by
    rw [List.flatMap_def, writeBatches_items h]
  obtain ⟨stops, _, rfl, rfl⟩ := writeBatches_yields h
  rw [← hitems]
  exact ⟨(commitFrom_branch policy stops htree batches.length 0 batches s.now).2, rfl⟩

end SuiteMigration.Run
