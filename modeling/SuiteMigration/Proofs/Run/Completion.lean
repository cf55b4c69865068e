import SuiteMigration.Proofs.Run.Conservation
import SuiteMigration.Proofs.Run.StoreRun
import SuiteMigration.Proofs.Text.Words

/-!
When a run over a repository in memory comes to its end. With an observer that never crashes no
phase stops the run but one: a transformation of the deepest tier generates targets from their
sources again, and there a crash of the generators is not caught. So a run is completed exactly if
the generators crash at none of the sources that it goes back to.
-/

set_option autoImplicit false
set_option relaxedAutoImplicit false

namespace SuiteMigration.Run

open SuiteMigration.Repository SuiteMigration.Text

variable {R α β : Type}

/-- A step gives a value. -/
def Completes (m : Step R α) (s : Session R) : Prop :=
  ∃ a next, Yields m s a next

/-- A step gives a value, whatever the session that it finds. -/
def Unfailing (m : Step R α) : Prop :=
  ∀ s, Completes m s

theorem Yields.unique {m : Step R α} {s next last : Session R} {a b : α} (h : Yields m s a next)
    (hother : Yields m s b last) : a = b ∧ next = last := by
  rw [Yields, h] at hother
  exact ⟨Except.ok.inj (congrArg Prod.fst hother), congrArg Prod.snd hother⟩

/-- After a step that gave a value it is up to the rest of the block. -/
theorem completes_bind_iff {m : Step R α} {f : α → Step R β} {s next : Session R} {a : α}
    (h : Yields m s a next) : Completes (m >>= f) s ↔ Completes (f a) next := by
  constructor
  · rintro ⟨b, last, hblock⟩
    obtain ⟨a', next', hfirst, hrest⟩ := yields_bind.mp hblock
    obtain ⟨rfl, rfl⟩ := h.unique hfirst
    exact ⟨b, last, hrest⟩
  · rintro ⟨b, last, hrest⟩
    exact ⟨b, last, yields_bind.mpr ⟨a, next, h, hrest⟩⟩

/-- A block gives a value if its first part does and then the rest does. -/
theorem completes_bind_and {P Q : Prop} {m : Step R α} {f : α → Step R β} {s : Session R}
    (hm : Completes m s ↔ P)
    (hf : ∀ a next, Yields m s a next → (Completes (f a) next ↔ Q)) :
    Completes (m >>= f) s ↔ P ∧ Q := by
  rw [← hm]
  constructor
  · rintro ⟨b, last, hblock⟩
    obtain ⟨a, next, hfirst, hrest⟩ := yields_bind.mp hblock
    exact ⟨⟨a, next, hfirst⟩, (hf a next hfirst).mp ⟨b, last, hrest⟩⟩
  · rintro ⟨⟨a, next, hfirst⟩, hq⟩
    exact (completes_bind_iff hfirst).mpr ((hf a next hfirst).mpr hq)

theorem Unfailing.completes_bind {Q : Prop} {m : Step R α} {f : α → Step R β} {s : Session R}
    (hm : Unfailing m) (hf : ∀ a next, Yields m s a next → (Completes (f a) next ↔ Q)) :
    Completes (m >>= f) s ↔ Q := by
  rw [completes_bind_and (iff_true_intro (hm s)) hf, true_and]

theorem completes_bind_unfailing {m : Step R α} {f : α → Step R β} (hf : ∀ a, Unfailing (f a))
    {s : Session R} : Completes (m >>= f) s ↔ Completes m s := by
  constructor
  · rintro ⟨_, _, hblock⟩
    obtain ⟨a, next, hfirst, _⟩ := yields_bind.mp hblock
    exact ⟨a, next, hfirst⟩
  · rintro ⟨a, next, hfirst⟩
    exact (completes_bind_iff hfirst).mpr (hf a next)

theorem Unfailing.pure (a : α) : Unfailing (pure a : Step R α) :=
  fun s ↦ ⟨a, s, rfl⟩

theorem Unfailing.modify (f : Session R → Session R) : Unfailing (modify f : Step R PUnit) :=
  fun s ↦ ⟨⟨⟩, f s, rfl⟩

theorem Unfailing.set (t : Session R) : Unfailing (set t : Step R PUnit) :=
  fun _ ↦ ⟨⟨⟩, t, rfl⟩

theorem Unfailing.bind {m : Step R α} {f : α → Step R β} (hm : Unfailing m)
    (hf : ∀ a, Unfailing (f a)) : Unfailing (m >>= f) := by
  intro s
  obtain ⟨a, next, h⟩ := hm s
  exact (completes_bind_iff h).mpr (hf a next)

theorem Unfailing.get_bind {f : Session R → Step R β} (hf : ∀ s, Unfailing (f s)) :
    Unfailing (get >>= f) :=
  fun s ↦ hf s s

theorem Unfailing.forM {f : α → Step R PUnit} (hf : ∀ a, Unfailing (f a)) (list : List α) :
    Unfailing (list.forM f) := by
  induction list with
  | nil => exact .pure _
  | cons a rest ih => exact (hf a).bind fun _ ↦ ih

/-! ### Phases that nothing stops -/

/-- An observer that lets all reports pass. -/
def Observer.Quiet (observer : Observer) : Prop :=
  ∀ call event, observer call event = none

section Quiet

variable {observer : Observer} (hquiet : observer.Quiet)
include hquiet

theorem notify_unfailing (event : Event) : Unfailing (notify observer event : Step R Unit) :=
  fun _ ↦ ⟨(), _, yields_notify.mpr ⟨hquiet _ _, rfl⟩⟩

theorem announce_unfailing (message : String) (phase : Phase) (percent : Nat) :
    Unfailing (announce observer message phase percent : Step R Unit) :=
  fun _ ↦ ⟨(), _, yields_announce.mpr ⟨hquiet _ _, rfl⟩⟩

omit hquiet in
theorem collectRead_unfailing (outcomes : List Reading.Outcome) :
    Unfailing (collectRead outcomes : Step R (List (DiscoveredFile × String))) := by
  induction outcomes with
  | nil => exact .pure _
  | cons outcome rest ih =>
    unfold collectRead
    split
    · exact ih.bind fun _ ↦ .pure _
    · exact (Unfailing.modify _).bind fun _ ↦ (Unfailing.modify _).bind fun _ ↦ ih

theorem readFiles_unfailing [Repository R] (policy : Reading.Policy)
    (files : List DiscoveredFile) :
    Unfailing (readFiles observer policy files : Step R (List (DiscoveredFile × String))) := by
  have hpool : Unfailing (readPool observer policy files : Step R (List Reading.Outcome)) :=
    Unfailing.get_bind fun _ ↦ (Unfailing.set _).bind fun _ ↦
      (Unfailing.forM (fun _ ↦ notify_unfailing hquiet _) _).bind fun _ ↦ .pure _
  exact (announce_unfailing hquiet _ _ _).bind fun _ ↦ hpool.bind fun outcomes ↦
    (Unfailing.modify _).bind fun _ ↦ collectRead_unfailing outcomes

omit hquiet in
theorem record_unfailing (t : TransformedFile) :
    Unfailing (record t : Step R (Option Commit.Item)) := by
  refine (Unfailing.modify _).bind fun _ ↦ ?_
  split
  · exact (Unfailing.modify _).bind fun _ ↦ .pure _
  · exact .pure _

omit hquiet in
/-- An engine always has a library, and so the shared files can be generated. -/
theorem skeleton_files_ok {engine : Engine} (hlibrary : isBlankText engine.library = false)
    (mode : Mode) (resources : List String) :
    ∃ files, Skeleton.files engine.layout.targetRoot engine.library mode resources = .ok files := by
  obtain ⟨c, hc, hblank⟩ := List.all_eq_false.mp hlibrary
  have htrim : (trim engine.library).isEmpty = false := by
    rw [String.isEmpty_eq_false_iff, trim, ne_eq, String.ofList_eq_empty_iff]
    exact Chars.trim_ne_nil hc (Bool.eq_false_iff.mpr hblank)
  rw [Skeleton.files, htrim]
  exact ⟨_, rfl⟩

theorem skeletonItems_unfailing {engine : Engine} (hlibrary : isBlankText engine.library = false)
    (request : Request) (items : List Commit.Item) :
    Unfailing (skeletonItems observer engine request items : Step R (List Commit.Item)) := by
  obtain ⟨files, hfiles⟩ := skeleton_files_ok hlibrary request.mode (items.map Commit.Item.path)
  unfold skeletonItems
  split
  · exact .pure _
  · refine (announce_unfailing hquiet _ _ _).bind fun _ ↦ ?_
    rw [hfiles]
    exact (Unfailing.modify _).bind fun _ ↦ .pure _

omit hquiet in
theorem settleDry_unfailing (items : List Commit.Item) :
    Unfailing (settleDry items : Step R Unit) := by
  induction items with
  | nil => exact .pure _
  | cons item rest ih =>
    unfold settleDry
    split
    · exact (Unfailing.modify _).bind fun _ ↦ ih
    · exact ih

omit hquiet in
theorem settleOutcomes_unfailing (outcomes : List Commit.Outcome) :
    Unfailing (settleOutcomes outcomes : Step R Unit) := by
  have hitem (result : Except Error (List String)) (item : Commit.Item) :
      Unfailing (settleItem result item : Step R Unit) := by
    unfold settleItem
    split
    · split
      · exact (Unfailing.modify _).bind fun _ ↦ .modify _
      · exact (Unfailing.modify _).bind fun _ ↦ .modify _
    · exact .pure _
  have hitems (result : Except Error (List String)) (items : List Commit.Item) :
      Unfailing (settleItems result items : Step R Unit) := by
    induction items with
    | nil => exact .pure _
    | cons item rest ih => exact (hitem result item).bind fun _ ↦ ih
  induction outcomes with
  | nil => exact .pure _
  | cons outcome rest ih => exact (hitems outcome.result outcome.items).bind fun _ ↦ ih

/-- A batch that fails does not stop the run. -/
theorem commitFiles_unfailing [Repository R] (policy : Commit.Policy) (request : Request)
    (branch : String) (items skeleton : List Commit.Item) :
    Unfailing (commitFiles observer policy request branch items skeleton : Step R Unit) := by
  have hwrite (batches : List (List Commit.Item)) :
      Unfailing (writeBatches observer policy branch batches : Step R _) :=
    Unfailing.get_bind fun _ ↦ (Unfailing.set _).bind fun _ ↦
      (Unfailing.forM (fun _ ↦ notify_unfailing hquiet _) _).bind fun _ ↦ .pure _
  refine (announce_unfailing hquiet _ _ _).bind fun _ ↦ ?_
  dsimp only
  split
  · exact (settleDry_unfailing items).bind fun _ ↦ .modify _
  · split
    · exact (Unfailing.modify _).bind fun _ ↦ (hwrite _).bind fun outcomes ↦
        (settleOutcomes_unfailing outcomes).bind fun _ ↦ .modify _
    · exact .modify _

end Quiet

/-! ### Transforming -/

/-- The generators crash at the text of a source. -/
def CrashesAt (engine : Engine) (store : Store) (source : DiscoveredFile) : Prop :=
  ∃ text e, store.readFile source.path (some source.branch) = .ok text ∧
    engine.generate source.path source.role text = .error e ∧ e.isCrash = true

theorem CrashesAt.congr {engine : Engine} {store other : Store} {source : DiscoveredFile}
    (hbranches : other.branches = store.branches) :
    CrashesAt engine other source ↔ CrashesAt engine store source := by
  have hread (path : String) (branch : String) :
      other.readFile path (some branch) = store.readFile path (some branch) :=
    readFile_congr (by rw [hbranches]) path
  simp only [CrashesAt, hread]

theorem yields_readBack {path branch : String} {s next : Session Store}
    {result : Except Error String} :
    Yields (readBack path branch) s result next ↔
      s.repo.readFile path (some branch) = result ∧
        { s with calls := s.calls ++ [⟨s.now, path, branch⟩] } = next := by
  have hexec : exec (readBack path branch) s = (.ok (s.repo.readFile path (some branch)),
    { s with calls := s.calls ++ [⟨s.now, path, branch⟩] }) := rfl
  rw [Yields, hexec, Prod.mk.injEq, Except.ok.injEq]

/-- Generating a target from its source again fails only by a crash. -/
theorem completes_regenerate_iff {engine : Engine} {source : DiscoveredFile} {s : Session Store} :
    Completes (regenerate engine source) s ↔ ¬ CrashesAt engine s.repo source := by
  rw [regenerate, completes_bind_iff (yields_readBack.mpr ⟨rfl, rfl⟩), CrashesAt]
  cases hread : s.repo.readFile source.path (some source.branch) with
  | error e => simpa using Unfailing.pure none _
  | ok text =>
    dsimp only
    cases hgenerate : engine.generate source.path source.role text with
    | ok output => simpa [hgenerate] using Unfailing.pure (some output.content) _
    | error e =>
      dsimp only
      cases hcrash : e.isCrash with
      | false => simpa [hgenerate, hcrash] using Unfailing.pure none _
      | true => simp [hgenerate, hcrash, Completes]

theorem mergeExisting_unfailing (engine : Engine) (request : Request) (branch : String)
    (fresh : TransformedFile) :
    Unfailing (mergeExisting engine request branch fresh : Step Store _) := by
  refine Unfailing.bind (fun _ ↦ ⟨_, _, yields_readBack.mpr ⟨rfl, rfl⟩⟩) fun result ↦ ?_
  split
  · exact .pure _
  · dsimp only
    split <;> exact .pure _

/-- Of all that is done with a file, only a crash at its source stops the run. A migration has no
index of sources. -/
theorem completes_transformFile_iff {engine : Engine} {request : Request} {branch : String}
    {sources : SourceIndex} {file : DiscoveredFile} {content : String} {s : Session Store}
    (hsources : request.operation.isTransformationOnly = false → sources = []) :
    Completes (transformFile engine request branch sources file content) s ↔
      ∀ source ∈ sources.lookup file.path, ¬ CrashesAt engine s.repo source := by
  have hmigrate : Unfailing (migrateFile engine file content : Step Store _) :=
    fun _ ↦ ⟨_, _, yields_migrateFile.mpr ⟨rfl, rfl⟩⟩
  unfold transformFile
  split
  next =>
    dsimp only
    cases hsource : sources.lookup file.path with
    | none => simpa using (Unfailing.pure none).bind (fun _ ↦ .pure _) s
    | some source =>
      rw [completes_bind_unfailing fun _ ↦ .pure _, completes_regenerate_iff]
      simp
  next hoperation =>
    rw [hsources (by rw [hoperation]; rfl)]
    simpa using hmigrate s
  next hoperation =>
    rw [hsources (by rw [hoperation]; rfl)]
    have hmerge : Unfailing (do
        let fresh ← migrateFile engine file content
        if fresh.isSuccess then mergeExisting engine request branch fresh else return fresh
        : Step Store TransformedFile) := by
      refine hmigrate.bind fun fresh ↦ ?_
      split
      · exact mergeExisting_unfailing _ _ _ _
      · exact .pure _
    simpa using hmerge s

/-- Files are transformed to the last one unless the generators crash at one of the sources. -/
theorem completes_transformFrom_iff {observer : Observer} (hquiet : observer.Quiet)
    {engine : Engine} {request : Request} {branch : String} {sources : SourceIndex}
    (hsources : request.operation.isTransformationOnly = false → sources = []) (total done : Nat)
    (loaded : List (DiscoveredFile × String)) (s : Session Store) :
    Completes (transformFrom observer engine request branch sources total done loaded) s ↔
      ∀ source ∈ loaded.filterMap fun pair ↦ sources.lookup pair.1.path,
        ¬ CrashesAt engine s.repo source := by
  induction loaded generalizing done s with
  | nil =>
    rw [transformFrom]
    simpa using Unfailing.pure _ s
  | cons pair rest ih =>
    obtain ⟨file, content⟩ := pair
    have hsplit : (∀ source ∈ ((file, content) :: rest).filterMap
          fun pair ↦ sources.lookup pair.1.path, ¬ CrashesAt engine s.repo source) ↔
        (∀ source ∈ sources.lookup file.path, ¬ CrashesAt engine s.repo source) ∧
          ∀ source ∈ rest.filterMap fun pair ↦ sources.lookup pair.1.path,
            ¬ CrashesAt engine s.repo source := by
      cases hlookup : sources.lookup file.path <;> simp [hlookup]
    rw [hsplit, transformFrom]
    refine completes_bind_and (completes_transformFile_iff hsources) fun t transformed hfile ↦ ?_
    refine (record_unfailing t).completes_bind fun item recorded hrecord ↦ ?_
    refine (notify_unfailing hquiet _).completes_bind fun _ notified hnotify ↦ ?_
    rw [completes_bind_unfailing fun _ ↦ .pure _, ih]
    -- whatever was done with the first file, the sources of the others are as they were
    have hsame : SameView Store.branches s notified :=
      trans_of (SameView Store.branches)
        ((transformFile_sameView branches_readOnly _ _ _ _ _ _).yields hfile)
        (trans_of (SameView Store.branches) ((record_sameView t).yields hrecord)
          ((notify_sameView _ _).yields hnotify))
    simp only [CrashesAt.congr hsame.1]

/-- The sources that a run goes back to, by their targets. -/
def knownSources (engine : Engine) (request : Request) (store : Store) : SourceIndex :=
  if request.operation.isTransformationOnly && request.tier == .deepRegeneration then
    match (discover { request with operation := .migration } store).1 with
    | .ok files => indexSources engine files
    | .error _ => []
  else []

/-- The sources that are generated again for the targets that can be read. -/
def regenerated (engine : Engine) (request : Request) (store : Store)
    (files : List DiscoveredFile) : List DiscoveredFile :=
  (sourceTexts store files).filterMap fun pair ↦
    (knownSources engine request store).lookup pair.1.path

theorem knownSources_of_migration {engine : Engine} {request : Request} {store : Store}
    (h : request.operation.isTransformationOnly = false) :
    knownSources engine request store = [] := by
  rw [knownSources, h]
  rfl

/-- The index is made from the sources that discovery finds; that it finds none is no failure. -/
theorem sourceIndex_yields {engine : Engine} {request : Request} {s : Session Store}
    (hdeep : (request.operation.isTransformationOnly && request.tier == .deepRegeneration) = true) :
    Yields (sourceIndex engine request) s (knownSources engine request s.repo) s := by
  have hstore := discover_store { request with operation := .migration } s.repo
  rw [knownSources, if_pos hdeep, Yields, sourceIndex, exec_bind, exec_access, hstore]
  dsimp only
  cases (discover { request with operation := .migration } s.repo).1 <;> rfl

theorem searchAll_congr {store other : Store} (h : other.branches = store.branches)
    (request : Request) (found : Assoc Role) (searches : List Search) :
    (searchAll request found searches other).1 = (searchAll request found searches store).1 := by
  have hlist (directory : String) :
      other.listFiles directory request.pattern (some request.readBranch) =
        store.listFiles directory request.pattern (some request.readBranch) := by
    unfold Store.listFiles Store.branchName Store.defaultBranch?
    rw [h]
  have hfiles (s : Store) (directory : String) :
      Repository.listFiles directory request.pattern (some request.readBranch) s =
        (s.listFiles directory request.pattern (some request.readBranch), s) := rfl
  induction searches generalizing found with
  | nil => rfl
  | cons search rest ih =>
    rw [searchAll, searchAll, hfiles, hfiles, hlist]
    cases store.listFiles search.directory request.pattern (some request.readBranch) with
    | error e => rfl
    | ok files => exact ih _

theorem knownSources_congr {store other : Store} (h : other.branches = store.branches)
    (engine : Engine) (request : Request) :
    knownSources engine request other = knownSources engine request store := by
  have hdiscover : (discover { request with operation := .migration } other).1 =
      (discover { request with operation := .migration } store).1 := by
    unfold discover
    dsimp only
    rw [searchAll_congr h]
  rw [knownSources, knownSources, hdiscover]

/-- Transforming stops only where the generators crash. -/
theorem completes_transformAll_iff {observer : Observer} (hquiet : observer.Quiet)
    {engine : Engine} {request : Request} {branch : String}
    (loaded : List (DiscoveredFile × String)) (s : Session Store) :
    Completes (transformAll observer engine request branch loaded) s ↔
      ∀ source ∈ loaded.filterMap fun pair ↦
        (knownSources engine request s.repo).lookup pair.1.path,
          ¬ CrashesAt engine s.repo source := by
  unfold transformAll
  refine (announce_unfailing hquiet _ _ _).completes_bind fun _ announced hannounce ↦ ?_
  obtain ⟨_, rfl⟩ := yields_announce.mp hannounce
  have hrest (total : Nat) (index : SourceIndex) (t : Session Store) :
      Completes (do
          let items ← transformFrom observer engine request branch index total 0 loaded
          enter .transforming 70
          return items : Step Store (List Commit.Item)) t ↔
        Completes (transformFrom observer engine request branch index total 0 loaded) t :=
    completes_bind_unfailing fun _ ↦ (Unfailing.modify _).bind fun _ ↦ .pure _
  dsimp only
  split
  next hdeep =>
    rw [completes_bind_iff (sourceIndex_yields hdeep), hrest,
      completes_transformFrom_iff hquiet knownSources_of_migration]
  next hdeep =>
    have hnone : knownSources engine request s.repo = [] := if_neg hdeep
    rw [completes_bind_iff (yields_pure.mpr ⟨rfl, rfl⟩), hrest,
      completes_transformFrom_iff hquiet fun _ ↦ rfl, hnone]

/-! ### The branch for the output -/

/-- The branch for the output is there, unless the run is dry. -/
def Present (request : Request) (branch : String) (s : Session Store) : Prop :=
  request.dryRun = false → ∃ tree, s.repo.Branch branch tree

theorem Along.present {request : Request} {branch : String} {m : Step Store α}
    (h : Along SameBranches m) : Along (Carries (Present request branch)) m := by
  intro s hpresent hdry
  obtain ⟨tree, htree⟩ := hpresent hdry
  refine ⟨tree, ?_⟩
  rw [Store.Branch, (h s).1]
  exact htree

theorem contains_keys_iff {store : Store} {branch : String} :
    (Assoc.keys store.branches).contains branch = true ↔ ∃ tree, store.Branch branch tree := by
  rw [List.contains_iff_mem, Assoc.mem_keys_iff, Option.isSome_iff_exists]
  rfl

/-- A migration reads the branch of the sources. -/
theorem Request.readBranch_of_migration (request : Request)
    (h : request.operation.isTransformationOnly = false) :
    request.readBranch = request.sourceBranch := by
  unfold Request.readBranch
  split
  next hoperation =>
    rw [hoperation] at h
    cases h
  next => rfl

/-- The branch for the output can be prepared if the branch that is read is there. A transformation
changes nothing for it. -/
theorem prepareBranch_completes (settings : Settings) {request : Request} {branches : List String}
    {s : Session Store} (hbranches : branches = Assoc.keys s.repo.branches)
    (hread : branches.contains request.readBranch = true) :
    ∃ branch next, Yields (prepareBranch settings request branches) s branch next ∧
      Present request branch next ∧
      (request.operation.isTransformationOnly = true → next.repo = s.repo) := by
  rw [hbranches] at hread
  unfold prepareBranch
  dsimp only
  cases htransformation : request.operation.isTransformationOnly with
  | true =>
    simp only [Bool.not_true, Bool.false_and, Bool.false_eq_true, if_false, if_true]
    refine ⟨_, _, yields_bind.mpr ⟨⟨⟩, _, yields_modify.mpr rfl, yields_pure.mpr ⟨rfl, rfl⟩⟩,
      fun _ ↦ branch_of_contains hread, fun _ ↦ rfl⟩
  | false =>
    have hsource := request.readBranch_of_migration htransformation
    simp only [Bool.not_false, Bool.true_and, Bool.false_eq_true, if_false]
    generalize request.targetBranch.getD settings.newBranch = branch
    split
    next hnew =>
      obtain ⟨tree, htree⟩ := branch_of_contains (hsource ▸ hread)
      rw [Bool.and_eq_true, Bool.not_eq_true', Bool.not_eq_true', hbranches] at hnew
      have hmissing : Assoc.contains branch s.repo.branches = false := by
        rw [Assoc.contains, ← Bool.not_eq_true, Option.isSome_iff_exists]
        intro hbranch
        rw [contains_keys_iff.mpr hbranch] at hnew
        cases hnew.2
      have hcreate : (Repository.createBranch branch request.sourceBranch s.repo).1 = .ok () := by
        change (keepOnError s.repo (s.repo.createBranch branch request.sourceBranch)).1 = _
        rw [Store.createBranch, hmissing, if_neg Bool.false_ne_true, htree]
        rfl
      refine ⟨branch, _, yields_bind.mpr ⟨(), _, yields_accessOr.mpr ⟨hcreate, rfl⟩,
        yields_bind.mpr ⟨⟨⟩, _, yields_modify.mpr rfl, yields_pure.mpr ⟨rfl, rfl⟩⟩⟩, fun _ ↦ ?_,
        nofun⟩
      exact (createBranch_store hcreate).1
    next hold =>
      refine ⟨branch, _, yields_bind.mpr ⟨⟨⟩, _, yields_modify.mpr rfl, yields_pure.mpr ⟨rfl, rfl⟩⟩,
        fun hdry ↦ branch_of_contains ?_, nofun⟩
      rw [← hbranches]
      simpa [hdry] using hold

/-- Committing leaves the branch for the output there. -/
theorem commitFiles_present {observer : Observer} {policy : Commit.Policy} {request : Request}
    {branch : String} {items skeleton : List Commit.Item} {s next : Session Store} {u : Unit}
    (hpresent : Present request branch s)
    (h : Yields (commitFiles observer policy request branch items skeleton) s u next) :
    Present request branch next := by
  intro hdry
  obtain ⟨_, announced, hannounce, h⟩ := yields_bind.mp h
  obtain ⟨tree, htree⟩ := (announce_sameBranches _ _ _ _).present.yields hannounce hpresent hdry
  rw [hdry] at h
  dsimp only at h
  rw [if_neg Bool.false_ne_true] at h
  split at h
  next =>
    obtain ⟨_, counted, hcount, h⟩ := yields_bind.mp h
    obtain ⟨outcomes, written, hwrite, h⟩ := yields_bind.mp h
    have hcounted : counted.repo.Branch branch tree := by
      obtain rfl := yields_count.mp hcount
      exact htree
    obtain ⟨hbranch, _⟩ := writeBatches_store hcounted hwrite
    exact ((settleOutcomes_sameBranches outcomes).bind fun _ ↦
      enter_sameBranches _ _).present.yields h (fun _ ↦ ⟨_, hbranch⟩) hdry
  next =>
    obtain rfl := yields_enter.mp h
    exact ⟨tree, htree⟩

/-- A pull request needs the branch that is to be pulled. -/
theorem completes_requestPull {observer : Observer} (hquiet : observer.Quiet) {request : Request}
    {branch : String} {s : Session Store} (hpresent : Present request branch s) :
    Completes (requestPull observer request branch) s := by
  unfold requestPull
  rw [completes_bind_iff (yields_get.mpr ⟨rfl, rfl⟩)]
  dsimp only
  split
  next hasked =>
    simp only [Bool.and_eq_true, Bool.not_eq_true'] at hasked
    refine ((announce_unfailing hquiet _ _ _).completes_bind fun _ announced hannounce ↦
      iff_true_intro ?_).mpr trivial
    obtain ⟨tree, htree⟩ :=
      (announce_sameBranches _ _ _ _).present.yields hannounce hpresent hasked.1.1.2
    have hopen (pull : PullRequest) (hhead : pull.head = branch) :
        ∃ url, (Repository.openPullRequest pull announced.repo).1 = .ok url := by
      have hcontains : Assoc.contains pull.head announced.repo.branches = true := by
        rw [hhead, Assoc.contains, htree]
        rfl
      change ∃ url, (keepOnError announced.repo (announced.repo.openPullRequest pull)).1 = .ok url
      rw [Store.openPullRequest, if_pos hcontains]
      exact ⟨_, rfl⟩
    obtain ⟨url, hurl⟩ := hopen (pullRequest request branch s.summary) rfl
    exact (completes_bind_iff (yields_accessOr.mpr ⟨hurl, rfl⟩)).mpr (Unfailing.modify _ _)
  next => exact Unfailing.pure _ _

/-! ### A whole run -/

theorem completes_process_iff {observer : Observer} (hquiet : observer.Quiet)
    (settings : Settings) {engine : Engine} (hlibrary : isBlankText engine.library = false)
    {request : Request} {branches : List String} (files : List DiscoveredFile)
    {s : Session Store} (hbranches : branches = Assoc.keys s.repo.branches)
    (hread : branches.contains request.readBranch = true) :
    Completes (process observer settings engine request branches files) s ↔
      ∀ source ∈ regenerated engine request s.repo files, ¬ CrashesAt engine s.repo source := by
  obtain ⟨branch, prepared, hprepare, hpresent, hsame⟩ :=
    prepareBranch_completes settings hbranches hread
  obtain ⟨loaded, ready, hready⟩ := readFiles_unfailing hquiet settings.reading files prepared
  obtain ⟨rfl, hframe, _⟩ := readFiles_store hready
  have hpresented : Present request branch ready := by
    intro hdry
    obtain ⟨tree, htree⟩ := hpresent hdry
    exact ⟨tree, by rw [Store.Branch, hframe.1]; exact htree⟩
  have hregenerated : (∀ source ∈ regenerated engine request prepared.repo files,
        ¬ CrashesAt engine prepared.repo source) ↔
      ∀ source ∈ regenerated engine request s.repo files, ¬ CrashesAt engine s.repo source := by
    cases htransformation : request.operation.isTransformationOnly with
    | true => rw [hsame htransformation]
    | false => simp [regenerated, knownSources_of_migration htransformation]
  rw [process, completes_bind_iff hprepare, completes_bind_iff hready, ← hregenerated]
  refine (completes_bind_and (Q := True) (completes_transformAll_iff hquiet _ ready)
    fun items transformed htransform ↦ iff_true_intro ?_).trans ?_
  · -- once the files are transformed nothing stops the run
    have hitems := (transformAll_sameView branches_readOnly _ _ _ _ _).sameBranches.present.yields
      htransform hpresented
    refine ((skeletonItems_unfailing hquiet hlibrary request items).completes_bind
      fun skeleton shared hskeleton ↦ iff_true_intro ?_).mpr trivial
    have hshared :=
      (skeletonItems_sameView _ _ _ _).sameBranches.present.yields hskeleton hitems
    refine ((commitFiles_unfailing hquiet _ _ _ _ _).completes_bind
      fun _ committed hcommit ↦ iff_true_intro ?_).mpr trivial
    obtain ⟨_, pulled, hpull⟩ := completes_requestPull hquiet (commitFiles_present hshared hcommit)
    exact (completes_bind_iff hpull).mpr (announce_unfailing hquiet _ _ _ _)
  · rw [and_true, regenerated, knownSources_congr hframe.1]
    simp only [CrashesAt.congr hframe.1]

/-- Discovery on a branch that is there gives files. -/
theorem discover_ok {store : Store} {request : Request}
    (hread : (Assoc.keys store.branches).contains request.readBranch = true) :
    ∃ files, (discover request store).1 = .ok files := by
  obtain ⟨tree, htree⟩ := branch_of_contains hread
  have hlist (directory : String) : ∃ handles,
      Repository.listFiles directory request.pattern (some request.readBranch) store =
        (.ok handles, store) := by
    have hname : store.branchName (some request.readBranch) = .ok request.readBranch := rfl
    change ∃ handles, (store.listFiles _ _ _, store) = _
    rw [Store.listFiles, hname]
    dsimp only [bind, Except.bind]
    rw [htree]
    exact ⟨_, rfl⟩
  have hsearch (found : Assoc Role) (searches : List Search) :
      ∃ last, (searchAll request found searches store).1 = .ok last := by
    induction searches generalizing found with
    | nil => exact ⟨found, rfl⟩
    | cons search rest ih =>
      obtain ⟨handles, hhandles⟩ := hlist search.directory
      rw [searchAll, hhandles]
      exact ih _
  obtain ⟨found, hfound⟩ := hsearch [] request.searches
  unfold discover
  dsimp only
  rw [hfound]
  exact ⟨_, rfl⟩

theorem completes_execute_iff {observer : Observer} (hquiet : observer.Quiet)
    (settings : Settings) {engine : Engine} (hlibrary : isBlankText engine.library = false)
    {request : Request} {s : Session Store} (hevents : s.events = [])
    (hread : (Assoc.keys s.repo.branches).contains request.readBranch = true) :
    Completes (execute observer settings engine request) s ↔
      ∀ source ∈ regenerated engine request s.repo (discoveredFiles observer request s.repo),
        ¬ CrashesAt engine s.repo source := by
  obtain ⟨files, hfiles⟩ := discover_ok hread
  have hdiscovered : discoveredFiles observer request s.repo = files :=
    discoveredFiles_eq (discovery?_eq_ok_iff.mpr
      ⟨hquiet _ _, hquiet _ _, _, rfl, hread, hfiles⟩)
  obtain ⟨accessed, haccess, haccessed⟩ : ∃ accessed, Yields (validateAccess observer request) s
      (Assoc.keys s.repo.branches) accessed ∧ accessed.repo = s.repo :=
    ⟨_, (validateAccess_yields observer request hevents).mpr ⟨hquiet _ _, rfl, hread, rfl⟩, rfl⟩
  obtain ⟨next, hnext, hrepo⟩ : ∃ next, Yields (discoverFiles observer request) accessed
      files next ∧ next.repo = s.repo := by
    rw [← haccessed] at hfiles ⊢
    exact ⟨_, (discoverFiles_yields observer request).mpr ⟨hquiet _ _, hfiles, rfl⟩,
      discover_store request accessed.repo⟩
  rw [execute, completes_bind_iff haccess, completes_bind_iff hnext, hdiscovered]
  split
  next hempty =>
    rw [List.isEmpty_iff.mp hempty]
    exact iff_of_true (announce_unfailing hquiet _ _ _ _) nofun
  next =>
    rw [← hrepo] at hread ⊢
    exact completes_process_iff hquiet settings hlibrary files rfl hread

/-- The phases of a run that nothing stopped end with the last one. -/
theorem phase_of_yields [Repository R] {observer : Observer} {settings : Settings}
    {engine : Engine} {request : Request} {s last : Session R} {u : Unit}
    (h : Yields (execute observer settings engine request) s u last) :
    last.status.phase = .completed := by
  obtain ⟨branches, _, _, h⟩ := yields_bind.mp h
  obtain ⟨files, _, _, h⟩ := yields_bind.mp h
  split at h
  · obtain ⟨_, rfl⟩ := yields_announce.mp h
    rfl
  · simp only [process, yields_bind] at h
    obtain ⟨_, _, _, _, _, _, _, _, _, _, _, _, _, _, _, _, _, _, hlast⟩ := h
    obtain ⟨_, rfl⟩ := yields_announce.mp hlast
    rfl

theorem completed_iff_completes [Repository R] {observer : Observer} {settings : Settings}
    {request : Request} {repo : R} :
    (run observer settings request repo).1.status.phase = .completed ↔
      Completes (execute observer settings (settings.engine request) request)
        (startSession settings request repo) := by
  refine ⟨fun h ↦ ⟨_, _, yields_of_completed h⟩, fun ⟨_, last, h⟩ ↦ ?_⟩
  have hrun : (execute observer settings (settings.engine request) request).run
      (startSession settings request repo) = (.ok (), last) := h
  unfold startSession at hrun
  rw [run, hrun]
  change last.status.phase = .completed
  exact phase_of_yields h

theorem engine_library (settings : Settings) (request : Request) :
    isBlankText (settings.engine request).library = false := by
  have hlibrary : (settings.engine request).library =
    if isBlankText settings.library then defaultLibrary else settings.library := rfl
  rw [hlibrary]
  split
  next => decide
  next hlibrary => exact Bool.eq_false_iff.mpr hlibrary

/-- With an observer that never crashes, a run that finds the branch to be read is completed if and
only if the generators crash at none of the sources that it generates again. Only transformations of
the deepest tier generate a source again, and so all other runs are completed. -/
theorem run_completed_iff (observer : Observer) (settings : Settings) (request : Request)
    (store : Store) (hquiet : observer.Quiet)
    (hread : (Assoc.keys store.branches).contains request.readBranch = true) :
    let engine := settings.engine request
    let response := (run observer settings request store).1
    (response.status.phase = .completed ↔
        ∀ source ∈ regenerated engine request store (discoveredFiles observer request store),
          ¬ CrashesAt engine store source) ∧
      (request.operation ≠ .transformation ∨ request.tier ≠ .deepRegeneration →
        response.status.phase = .completed) := by
  intro engine response
  have hiff : response.status.phase = .completed ↔
      ∀ source ∈ regenerated engine request store (discoveredFiles observer request store),
        ¬ CrashesAt engine store source :=
    completed_iff_completes.trans
      (completes_execute_iff hquiet settings (engine_library settings request) rfl hread)
  refine ⟨hiff, fun hshallow ↦ hiff.mpr ?_⟩
  have hnone : knownSources engine request store = [] := by
    refine if_neg fun hdeep ↦ ?_
    rw [Bool.and_eq_true, beq_iff_eq] at hdeep
    rcases hshallow with hoperation | htier
    · cases h : request.operation with
      | transformation => exact hoperation h
      | _ =>
        rw [h] at hdeep
        cases hdeep.1
    · exact htier hdeep.2
  simp [regenerated, hnone]

/-- A target is generated from its source again, and the generators do not crash there. -/
theorem run_completed_deep_tier :
    let store : Store :=
      .ofBranch "main" [("A.java", "class A { void m() { } }"), ("robot/A.resource", "x")] true
    let settings : Settings := { newBranch := "migrated", sourceRoots := ["src"] }
    let request : Request :=
      { operation := .transformation, targetBranch := some "main", tier := .deepRegeneration }
    let files := discoveredFiles .quiet request store
    Observer.quiet.Quiet ∧ (Assoc.keys store.branches).contains request.readBranch = true ∧
      regenerated (settings.engine request) request store files = [⟨"A.java", .other, "main"⟩] ∧
      (run .quiet settings request store).1.status.phase = .completed := by
  intro store settings request files
  have hsources : regenerated (settings.engine request) request store files =
      [⟨"A.java", .other, "main"⟩] := by
    decide +kernel
  have hgenerate : ((settings.engine request).generate "A.java" .other
      "class A { void m() { } }").isOk = true := by
    decide +kernel
  refine ⟨fun _ _ ↦ rfl, by decide, hsources, ?_⟩
  refine (run_completed_iff .quiet settings request store (fun _ _ ↦ rfl) (by decide)).1.mpr ?_
  rw [hsources]
  rintro source hsource ⟨text, e, htext, herror, _⟩
  obtain rfl := List.mem_singleton.mp hsource
  obtain rfl : "class A { void m() { } }" = text := Except.ok.inj htext
  rw [herror] at hgenerate
  cases hgenerate

/-- A single source that the generators crash at fails the run, although the branch is there and the
observer never crashes. -/
theorem run_failed_by_single_file :
    let store : Store :=
      .ofBranch "main" [("A.java", "class A { void m→n() { } }"), ("robot/A.resource", "x")] true
    let settings : Settings := { newBranch := "migrated", sourceRoots := ["src"] }
    let request : Request :=
      { operation := .transformation, targetBranch := some "main", tier := .deepRegeneration }
    (Assoc.keys store.branches).contains request.readBranch = true ∧
      settings.assistantFor request = none ∧
      (run .quiet settings request store).1.status.phase = .failed ∧
      (run .quiet settings request store).1.failure.map Failure.code = some .internal := by
  intro store settings request
  refine ⟨by decide, rfl, ?_⟩
  decide +kernel

end SuiteMigration.Run
