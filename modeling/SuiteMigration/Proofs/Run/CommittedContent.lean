import Mathlib.Data.List.Nodup
import SuiteMigration.Proofs.Run.StoreRun

/-!
What the branch for the output holds after a migration. The generated files are written in their
order and the shared files after them, so a path ends up with the content that was written there
last. A result is right about its target unless a later file has the same target: paths lose their
extension and their source root, so that files of different languages, of different roots or with
the name of a shared file may meet at one target.
-/

set_option autoImplicit false
set_option relaxedAutoImplicit false

namespace SuiteMigration.Run

open SuiteMigration.Repository

/-- Fresh migrations of files, in their order, with the help of one assistant. -/
def migrations (engine : Engine) :
    Option Completion.Assistant → List (DiscoveredFile × String) → List TransformedFile
  | _, [] => []
  | assistant, (file, text) :: rest =>
      let (transformed, after, _) := engine.migrate assistant file text
      transformed :: migrations engine after rest

/-- The files that a migration writes: those that it could generate, and then the shared ones. -/
def outputFiles (engine : Engine) (request : Request) (generated : List TransformedFile) :
    List FileWrite :=
  let migrated : List FileWrite :=
    (generated.filter TransformedFile.isSuccess).map fun t ↦ ⟨t.targetPath, t.content⟩
  let shared := Skeleton.files engine.layout.targetRoot engine.library request.mode
    (migrated.map FileWrite.path)
  migrated ++ shared.toOption.getD []

/-- The item for a generated file. -/
def itemOf (t : TransformedFile) : Commit.Item :=
  ⟨t.targetPath, t.content, t.role, some t.sourcePath⟩

theorem migrations_sourcePath (engine : Engine) (assistant : Option Completion.Assistant)
    (loaded : List (DiscoveredFile × String)) :
    (migrations engine assistant loaded).map TransformedFile.sourcePath =
      loaded.map fun pair ↦ pair.1.path := by
  induction loaded generalizing assistant with
  | nil => rfl
  | cons pair rest ih =>
    obtain ⟨file, text⟩ := pair
    rw [migrations, List.map_cons, List.map_cons, ih, (engine.migrate_about _ _ _).1]

theorem sourceTexts_sublist (store : Store) (files : List DiscoveredFile) :
    ((sourceTexts store files).map fun pair ↦ pair.1.path).Sublist
      (files.map DiscoveredFile.path) := by
  induction files with
  | nil => exact List.Sublist.slnil
  | cons file rest ih =>
    unfold sourceTexts at ih ⊢
    rw [List.filterMap_cons, List.map_cons]
    cases store.readFile file.path (some file.branch) with
    | error e => exact ih.cons _
    | ok text => exact ih.cons_cons _

/-! ### Transforming -/

theorem record_yields {t : TransformedFile} {item : Option Commit.Item} {s next : Session Store}
    (hfresh : t.strategy ≠ .unchanged) (h : Yields (record t) s item next) :
    item = (if t.isSuccess then some (itemOf t) else none) ∧ SameBranches s next ∧
      next.assistant = s.assistant := by
  have hstrategy : (t.strategy == .unchanged) = false := beq_eq_false_iff_ne.mpr hfresh
  simp only [record, yields_bind, yields_count] at h
  obtain ⟨_, _, rfl, h⟩ := h
  unfold TransformedFile.result? at h
  cases hsuccess : t.isSuccess with
  | false =>
    simp only [hsuccess, Bool.not_false, if_true, yields_bind, yields_resolve, yields_pure] at h
    obtain ⟨_, _, rfl, rfl, rfl⟩ := h
    exact ⟨rfl, ⟨rfl, rfl⟩, rfl⟩
  | true =>
    simp only [hsuccess, hstrategy, Bool.not_true, Bool.false_eq_true, if_false, yields_pure] at h
    obtain ⟨rfl, rfl⟩ := h
    exact ⟨rfl, ⟨rfl, rfl⟩, rfl⟩

/-- A migration commits the generated files, in their order. -/
theorem transformFrom_migration {observer : Observer} {engine : Engine} {request : Request}
    {branch : String} {index : SourceIndex} {total done : Nat}
    {loaded : List (DiscoveredFile × String)} {items : List Commit.Item} {s next : Session Store}
    (hoperation : request.operation = .migration)
    (h : Yields (transformFrom observer engine request branch index total done loaded) s items
      next) :
    items = ((migrations engine s.assistant loaded).filter TransformedFile.isSuccess).map itemOf ∧
      SameBranches s next := by
  induction loaded generalizing done items s with
  | nil =>
    obtain ⟨rfl, rfl⟩ := yields_pure.mp h
    exact ⟨rfl, rfl, rfl⟩
  | cons pair rest ih =>
    obtain ⟨file, text⟩ := pair
    obtain ⟨t, _, hfile, h⟩ := yields_bind.mp h
    obtain ⟨item, _, hrecord, h⟩ := yields_bind.mp h
    obtain ⟨_, _, hnotify, h⟩ := yields_bind.mp h
    obtain ⟨others, _, hrest, hlast⟩ := yields_bind.mp h
    obtain ⟨rfl, rfl⟩ := yields_pure.mp hlast
    rw [transformFile, hoperation] at hfile
    obtain ⟨ht, rfl⟩ := yields_migrateFile.mp hfile
    have hfresh : t.strategy ≠ .unchanged := ht ▸ (engine.migrate_about _ _ _).2
    obtain ⟨hitem, hrecorded, hassistant⟩ := record_yields hfresh hrecord
    have hnotified := (notify_sameBranches observer _).yields hnotify
    obtain ⟨_, rfl⟩ := yields_notify.mp hnotify
    obtain ⟨hothers, hplace⟩ := ih hrest
    refine ⟨?_, trans_of SameBranches hrecorded (trans_of SameBranches hnotified hplace)⟩
    dsimp only at hothers hassistant
    rw [hothers, hassistant, migrations]
    dsimp only
    rw [ht, hitem, List.filter_cons]
    split <;> rfl

theorem transformAll_migration {observer : Observer} {engine : Engine} {request : Request}
    {branch : String} {loaded : List (DiscoveredFile × String)} {items : List Commit.Item}
    {s next : Session Store} (hoperation : request.operation = .migration)
    (h : Yields (transformAll observer engine request branch loaded) s items next) :
    items = ((migrations engine s.assistant loaded).filter TransformedFile.isSuccess).map itemOf ∧
      SameBranches s next := by
  have hmigration : request.operation.isTransformationOnly = false := by rw [hoperation]; rfl
  unfold transformAll at h
  simp only [hmigration, Bool.false_and, Bool.false_eq_true, if_false, yields_bind, yields_pure,
    yields_announce, yields_enter] at h
  obtain ⟨_, _, ⟨_, rfl⟩, _, _, ⟨rfl, rfl⟩, _, _, hfrom, _, _, rfl, rfl, rfl⟩ := h
  obtain ⟨hitems, hplace⟩ := transformFrom_migration hoperation hfrom
  exact ⟨hitems, hplace⟩

theorem skeletonItems_migration {observer : Observer} {engine : Engine} {request : Request}
    {items skeleton : List Commit.Item} {s next : Session Store}
    (hoperation : request.operation = .migration)
    (h : Yields (skeletonItems observer engine request items) s skeleton next) :
    (∃ shared, Skeleton.files engine.layout.targetRoot engine.library request.mode
        (items.map Commit.Item.path) = .ok shared ∧ skeleton.map Commit.Item.write = shared ∧
        ∀ item ∈ skeleton, item.source = none) ∧ SameBranches s next := by
  have hmigration : request.operation.isTransformationOnly = false := by rw [hoperation]; rfl
  unfold skeletonItems at h
  rw [hmigration, if_neg Bool.false_ne_true] at h
  obtain ⟨_, _, hannounce, h⟩ := yields_bind.mp h
  obtain ⟨_, rfl⟩ := yields_announce.mp hannounce
  split at h
  next => exact absurd h yields_throw
  next shared hshared =>
    simp only [yields_bind, yields_count, yields_pure] at h
    obtain ⟨_, _, rfl, rfl, rfl⟩ := h
    refine ⟨⟨shared, hshared, ?_, ?_⟩, rfl, rfl⟩
    · rw [List.map_map]
      exact List.map_id shared
    · intro item hitem
      obtain ⟨file, _, rfl⟩ := List.mem_map.mp hitem
      rfl

/-- The items of a migration are the files that it writes. -/
theorem write_items {engine : Engine} {request : Request} {generated : List TransformedFile}
    {items skeleton : List Commit.Item} {shared : List FileWrite}
    (hitems : items = (generated.filter TransformedFile.isSuccess).map itemOf)
    (hshared : Skeleton.files engine.layout.targetRoot engine.library request.mode
      (items.map Commit.Item.path) = .ok shared)
    (hskeleton : skeleton.map Commit.Item.write = shared) :
    (items ++ skeleton).map Commit.Item.write = outputFiles engine request generated := by
  have hwrites : items.map Commit.Item.write =
      (generated.filter TransformedFile.isSuccess).map fun t ↦ ⟨t.targetPath, t.content⟩ := by
    rw [hitems, List.map_map]
    rfl
  have hpaths : items.map Commit.Item.path = (items.map Commit.Item.write).map FileWrite.path := by
    rw [List.map_map]
    rfl
  rw [hpaths, hwrites] at hshared
  rw [List.map_append, hwrites, hskeleton, outputFiles, hshared]
  rfl

/-! ### Committing -/

/-- A successful result names the target of the file that was generated from its source, and at that
target the branch for the output has the content that was written last. -/
def Delivered (generated : List TransformedFile) (files : List FileWrite) (s : Session Store)
    (r : FileResult) : Prop :=
  ∃ branch, s.status.branch = some branch ∧ (∃ g ∈ generated, g.sourcePath = r.source) ∧
    ∀ g ∈ generated, g.sourcePath = r.source → r.target = some g.targetPath ∧
      ∃ content, lastContent g.targetPath files = some content ∧
        s.repo.file? branch g.targetPath = some content

/-- All successful results are delivered. -/
def AllDelivered (generated : List TransformedFile) (files : List FileWrite) (s : Session Store) :
    Prop :=
  ∀ e ∈ s.entries, ∀ r, e.result = some r → r.verdict.isSuccess = true →
    Delivered generated files s r

/-- No result is successful. -/
abbrev Unsuccessful (found : List DiscoveredFile) (s : Session Store) : Prop :=
  Table found (fun r ↦ r.verdict.isSuccess = false) s

variable {generated : List TransformedFile} {files : List FileWrite}
  {found : List DiscoveredFile}

theorem AllDelivered.of_unsuccessful {s : Session Store} (h : Unsuccessful found s) :
    AllDelivered generated files s := by
  intro e he r hr hsuccess
  rw [h.holds e he r hr] at hsuccess
  cases hsuccess

/-- A step that leaves the table and the branches alone keeps what is delivered. -/
theorem Along.allDelivered {α : Type} {m : Step Store α} (htable : Along SameTable m)
    (hbranches : Along SameBranches m) : Along (Carries (AllDelivered generated files)) m := by
  intro s h e he r hr hsuccess
  rw [(htable s).1] at he
  obtain ⟨branch, hbranch, hsource, htarget⟩ := h e he r hr hsuccess
  refine ⟨branch, (hbranches s).2.trans hbranch, hsource, fun g hg hpath ↦ ?_⟩
  obtain ⟨hname, content, hlast, hcontent⟩ := htarget g hg hpath
  refine ⟨hname, content, hlast, ?_⟩
  rw [← hcontent, Store.file?, Store.file?, (hbranches s).1]

/-- A successful result of an item. -/
def SettledBy (items : List Commit.Item) (r : FileResult) : Prop :=
  r.verdict.isSuccess = true →
    ∃ item ∈ items, item.source = some r.source ∧ r.target = some item.path

/-- Once all files are written, the results of their items are delivered. -/
theorem Table.allDelivered {items skeleton : List Commit.Item} {s : Session Store}
    {branch : String} {tree : Tree}
    (hdistinct : (generated.map TransformedFile.sourcePath).Nodup)
    (hitems : items = (generated.filter TransformedFile.isSuccess).map itemOf)
    (hfiles : (items ++ skeleton).map Commit.Item.write = files)
    (htable : Table found (SettledBy items) s) (hbranch : s.status.branch = some branch)
    (htree : s.repo.Branch branch (writeTree tree files)) : AllDelivered generated files s := by
  intro e he r hr hsuccess
  obtain ⟨item, hitem, hsource, htarget⟩ := htable.holds e he r hr hsuccess
  have hwritten : item.write ∈ files :=
    hfiles ▸ List.mem_map_of_mem (List.mem_append_left skeleton hitem)
  rw [hitems] at hitem
  obtain ⟨g, hg, rfl⟩ := List.mem_map.mp hitem
  have hgenerated : g ∈ generated := List.mem_of_mem_filter hg
  have hpath : g.sourcePath = r.source := Option.some.inj hsource
  refine ⟨branch, hbranch, ⟨g, hgenerated, hpath⟩, fun other hother hsame ↦ ?_⟩
  -- every source gives one file, so there is no other one
  obtain rfl : other = g :=
    List.inj_on_of_nodup_map hdistinct hother hgenerated (hsame.trans hpath.symm)
  obtain ⟨content, hcontent⟩ := Option.isSome_iff_exists.mp (lastContent_isSome hwritten)
  refine ⟨htarget, content, hcontent, ?_⟩
  change lastContent other.targetPath files = some content at hcontent
  rw [htree.file?, lookup_writeTree, hcontent]
  rfl

/-- The outcomes of a writing that succeeded settle the items as delivered. -/
theorem settleOutcomes_allDelivered {outcomes : List Commit.Outcome}
    {items skeleton : List Commit.Item} {s : Session Store} {branch : String} {tree : Tree}
    (hdistinct : (generated.map TransformedFile.sourcePath).Nodup)
    (hitems : items = (generated.filter TransformedFile.isSuccess).map itemOf)
    (hshared : ∀ item ∈ skeleton, item.source = none)
    (hfiles : (items ++ skeleton).map Commit.Item.write = files) (htable : Unsuccessful found s)
    (houtcomes : outcomes.flatMap Commit.Outcome.items = items ++ skeleton)
    (hbranch : s.status.branch = some branch)
    (htree : s.repo.Branch branch (writeTree tree files)) :
    AllDelivered generated files (final (settleOutcomes outcomes) s) := by
  have hsettled : Table found (SettledBy items) (final (settleOutcomes outcomes) s) := by
    refine settleOutcomes_table ?_ ?_ s (htable.weaken fun r hr hsuccess ↦ ?_)
    · intro outcome houtcome item hitem ids source _ hsource _
      have hmem : item ∈ items ++ skeleton :=
        houtcomes ▸ List.mem_flatMap.mpr ⟨outcome, houtcome, hitem⟩
      rcases List.mem_append.mp hmem with hmem | hmem
      · exact ⟨item, hmem, hsource, rfl⟩
      · rw [hshared item hmem] at hsource
        cases hsource
    · intro outcome _ item _ e source _ _ hsuccess
      cases hsuccess
    · rw [hr] at hsuccess
      cases hsuccess
  obtain ⟨hsame, hstatus⟩ := settleOutcomes_sameBranches outcomes s
  have hkept : (final (settleOutcomes outcomes) s).repo.Branch branch (writeTree tree files) := by
    rw [Store.Branch, hsame]
    exact htree
  exact hsettled.allDelivered hdistinct hitems hfiles (hstatus.trans hbranch) hkept

/-- Committing delivers, whatever way it ends: nothing is settled before all files are written. -/
theorem commitFiles_allDelivered (observer : Observer) (policy : Commit.Policy) {request : Request}
    {branch : String} {items skeleton : List Commit.Item} {s : Session Store} {tree : Tree}
    (hdry : request.dryRun = false)
    (hdistinct : (generated.map TransformedFile.sourcePath).Nodup)
    (hitems : items = (generated.filter TransformedFile.isSuccess).map itemOf)
    (hshared : ∀ item ∈ skeleton, item.source = none)
    (hfiles : (items ++ skeleton).map Commit.Item.write = files) (htable : Unsuccessful found s)
    (hbranch : s.status.branch = some branch) (htree : s.repo.Branch branch tree) :
    AllDelivered generated files
      (final (commitFiles observer policy request branch items skeleton) s) := by
  refine final_bind_cases (fun _ ↦ ?_) fun _ announced hannounce ↦ ?_
  · exact .of_unsuccessful ((announce_sameTable _ _ _ _).table s htable)
  · have hready := (announce_sameTable _ _ _ _).table.yields hannounce htable
    have hannounced := (announce_sameBranches _ _ _ _).yields hannounce
    rw [hdry]
    dsimp only
    rw [if_neg Bool.false_ne_true]
    split
    next =>
      refine final_bind_cases (fun hstop ↦ ?_) fun _ counted hcount ↦ ?_
      · exact absurd (yields_count.mpr rfl) (hstop () _)
      have hcounted := (count_table _).yields hcount hready
      obtain ⟨hsame, hstatus⟩ := trans_of SameBranches hannounced
        ((count_sameBranches _).yields hcount)
      refine final_bind_cases (fun _ ↦ ?_) fun outcomes written hwrite ↦ ?_
      · exact .of_unsuccessful ((writeBatches_sameTable _ _ _ _).table _ hcounted)
      have hwritten := (writeBatches_sameTable _ _ _ _).table.yields hwrite hcounted
      have houtcomes : outcomes.flatMap Commit.Outcome.items = items ++ skeleton := by
        rw [List.flatMap_def, writeBatches_items hwrite, Commit.flatten_planBatches]
      have hbefore : counted.repo.Branch branch tree := by
        rw [Store.Branch, hsame]
        exact htree
      obtain ⟨hplaced, hkept⟩ := writeBatches_store hbefore hwrite
      rw [Commit.flatten_planBatches, hfiles] at hplaced
      have hdone : AllDelivered generated files (final (settleOutcomes outcomes) written) :=
        settleOutcomes_allDelivered hdistinct hitems hshared hfiles hwritten houtcomes
          (hkept ▸ hstatus.trans hbranch) hplaced
      exact final_bind_cases (fun _ ↦ hdone) fun _ settled hsettle ↦
        Along.allDelivered (enter_sameTable _ _) (enter_sameBranches _ _) settled
          (hsettle.final_eq ▸ hdone)
    next => exact .of_unsuccessful ((enter_sameTable _ _).table _ hready)

/-! ### A whole run -/

theorem isSuccess_of_result? {t : TransformedFile} (hfresh : t.strategy ≠ .unchanged)
    {r : FileResult} (h : TransformedFile.result? t = some r) : r.verdict.isSuccess = false := by
  unfold TransformedFile.result? at h
  split at h
  · rw [← Option.some.inj h]
    rfl
  · rw [if_neg (by simpa using hfresh)] at h
    cases h

theorem migrations_distinct (engine : Engine) (assistant : Option Completion.Assistant)
    (store : Store) (hdistinct : (found.map DiscoveredFile.path).Nodup) :
    ((migrations engine assistant (sourceTexts store found)).map
      TransformedFile.sourcePath).Nodup := by
  rw [migrations_sourcePath]
  exact hdistinct.sublist (sourceTexts_sublist store found)

/-- From discovery on a migration delivers, whatever way it ends. -/
theorem process_allDelivered {observer : Observer} {settings : Settings} {engine : Engine}
    {request : Request} {branches : List String} {s : Session Store}
    (hoperation : request.operation = .migration) (hdry : request.dryRun = false)
    (hbranches : branches = Assoc.keys s.repo.branches)
    (hread : branches.contains request.readBranch = true)
    (hfound : ∀ file ∈ found, file.branch = request.readBranch)
    (hdistinct : (found.map DiscoveredFile.path).Nodup) (htable : Unsuccessful found s) :
    AllDelivered (migrations engine s.assistant (sourceTexts s.repo found))
      (outputFiles engine request (migrations engine s.assistant (sourceTexts s.repo found)))
      (final (process observer settings engine request branches found) s) := by
  refine final_bind_cases (fun _ ↦ ?_) fun branch prepared hprepare ↦ ?_
  · exact .of_unsuccessful ((prepareBranch_sameTable _ _ _).table s htable)
  have hprepared := (prepareBranch_sameTable _ _ _).table.yields hprepare htable
  obtain ⟨hbranch, ⟨tree, htree⟩, hsources, hassistant⟩ :=
    prepareBranch_store hoperation hdry hbranches hread hprepare
  refine final_bind_cases (fun _ ↦ ?_) fun loaded readied hreading ↦ ?_
  · exact .of_unsuccessful (readFiles_table (fun _ _ ↦ rfl) _ _ _ prepared hprepared)
  have hreadied := (readFiles_table (fun _ _ ↦ rfl) _ _ _).yields hreading hprepared
  obtain ⟨hloaded, hreadPlace, hreadAssistant⟩ := readFiles_store hreading
  rw [sourceTexts_congr hsources hfound] at hloaded
  have hfailed (sources : SourceIndex) (file : DiscoveredFile) (content : String)
      (before : Session Store) (t : TransformedFile) (after : Session Store)
      (ht : Yields (transformFile engine request branch sources file content) before t after)
      (r : FileResult) (hr : TransformedFile.result? t = some r) : r.verdict.isSuccess = false := by
    rw [transformFile, hoperation] at ht
    refine isSuccess_of_result? ?_ hr
    rw [← (yields_migrateFile.mp ht).1]
    exact (engine.migrate_about _ _ _).2
  refine final_bind_cases (fun _ ↦ ?_) fun items transformed htransform ↦ ?_
  · exact .of_unsuccessful (transformAll_table hfailed loaded readied hreadied)
  have htransformed := (transformAll_table hfailed loaded).yields htransform hreadied
  obtain ⟨hitems, htransformPlace⟩ := transformAll_migration hoperation htransform
  rw [hreadAssistant, hassistant, hloaded] at hitems
  refine final_bind_cases (fun _ ↦ ?_) fun skeleton shared hskeleton ↦ ?_
  · exact .of_unsuccessful (skeletonItems_table _ _ _ _ transformed htransformed)
  have hshared := (skeletonItems_table _ _ _ _).yields hskeleton htransformed
  obtain ⟨⟨_, hfiles, hwrites, hnone⟩, hskeletonPlace⟩ :=
    skeletonItems_migration hoperation hskeleton
  obtain ⟨hsame, hstatus⟩ := trans_of SameBranches hreadPlace
    (trans_of SameBranches htransformPlace hskeletonPlace)
  have hready : shared.repo.Branch branch tree := by
    rw [Store.Branch, hsame]
    exact htree
  have hcommitted := commitFiles_allDelivered observer settings.committing
    hdry (migrations_distinct engine s.assistant s.repo hdistinct) hitems hnone
    (write_items hitems hfiles hwrites) hshared (hstatus.trans hbranch) hready
  refine final_bind_cases (fun _ ↦ hcommitted) fun _ committed hcommit ↦ ?_
  refine ((requestPull_sameTable observer request branch).allDelivered
    (requestPull_sameBranches observer request branch)).bind (fun _ ↦ ?_) committed
      (hcommit.final_eq ▸ hcommitted)
  exact (announce_sameTable _ _ _ _).allDelivered (announce_sameBranches _ _ _ _)

theorem execute_allDelivered (observer : Observer) (settings : Settings) (engine : Engine)
    {request : Request} {s : Session Store} (hoperation : request.operation = .migration)
    (hdry : request.dryRun = false) (hentries : s.entries = []) (hevents : s.events = []) :
    let generated := migrations engine s.assistant
      (sourceTexts s.repo (discoveredFiles observer request s.repo))
    AllDelivered generated (outputFiles engine request generated)
      (final (execute observer settings engine request) s) := by
  intro generated
  have hnothing (t : Session Store) (ht : t.entries = s.entries) :
      AllDelivered generated (outputFiles engine request generated) t :=
    .of_unsuccessful (Table.of_nil (ht.trans hentries))
  refine final_bind_cases (fun _ ↦ ?_) fun branches accessed haccess ↦ ?_
  · exact hnothing _ (validateAccess_sameTable observer request s).1
  obtain ⟨hobserver, hbranches, hcontains, rfl⟩ :=
    (validateAccess_yields observer request hevents).mp haccess
  refine final_bind_cases (fun hstop ↦ ?_) fun found next hnext ↦ ?_
  · exact hnothing _ (discoverFiles_stopped hstop)
  obtain ⟨hcall, hdiscover, hsession⟩ := (discoverFiles_yields observer request).mp hnext
  have hfound : discoveredFiles observer request s.repo = found :=
    discoveredFiles_eq (discovery?_eq_ok_iff.mpr
      ⟨hobserver, hcall, branches, hbranches, hcontains, hdiscover⟩)
  have hrepo : next.repo = s.repo := by
    rw [← hsession]
    exact discover_store request s.repo
  have hassistant : next.assistant = s.assistant := by rw [← hsession]
  have hstart : Unsuccessful found next := Table.start found (by rw [← hsession])
  split
  · exact .of_unsuccessful ((announce_sameTable observer _ _ _).table next hstart)
  · change AllDelivered (migrations engine s.assistant
      (sourceTexts s.repo (discoveredFiles observer request s.repo))) (outputFiles engine request
        (migrations engine s.assistant
          (sourceTexts s.repo (discoveredFiles observer request s.repo)))) _
    rw [hfound, ← hrepo, ← hassistant]
    refine process_allDelivered hoperation hdry ?_ hcontains (discover_branch hdiscover)
      ((discover_ascending request _ hdiscover).imp String.ne_of_lt) hstart
    rw [hrepo]
    exact (Except.ok.inj hbranches).symm

/-- A successful result of a migration names the target of the one file that was generated from its
source. At the end of the run that file is there if and only if the last content that was written to
the target is its own; and so it is there if no other content was written to the target. -/
theorem committed_content_iff (observer : Observer) (settings : Settings) (request : Request)
    (store : Store) (hoperation : request.operation = .migration)
    (hdry : request.dryRun = false) :
    let engine := settings.engine request
    let response := (run observer settings request store).1
    let repo := (run observer settings request store).2.repo
    let generated := migrations engine (settings.assistantFor request)
      (sourceTexts store (discoveredFiles observer request store))
    let files := outputFiles engine request generated
    ∀ r ∈ response.results, r.verdict.isSuccess = true →
      ∃ branch, response.status.branch = some branch ∧
        (∃ g ∈ generated, g.sourcePath = r.source) ∧
        ∀ g ∈ generated, g.sourcePath = r.source →
          r.target = some g.targetPath ∧
            (repo.file? branch g.targetPath = some g.content ↔
              lastContent g.targetPath files = some g.content) ∧
            ((∀ file ∈ files, file.path = g.targetPath → file.content = g.content) →
              repo.file? branch g.targetPath = some g.content) := by
  intro engine response repo generated files r hr hsuccess
  have hdelivered : AllDelivered generated files (endSession observer settings request store) :=
    execute_allDelivered observer settings engine hoperation hdry rfl rfl
  rw [run_results] at hr
  obtain ⟨e, he, rfl⟩ := List.mem_map.mp hr
  have hsettled : e.result = some (e.settled (unsettledReason response.failure)) := by
    rcases settled_cases response.failure e with hsome | ⟨_, rest, hfailed⟩
    · exact hsome
    · rw [hfailed] at hsuccess
      cases hsuccess
  obtain ⟨branch, hbranch, hsource, htarget⟩ := hdelivered e he _ hsettled hsuccess
  refine ⟨branch, (run_branch observer settings request store).trans hbranch, hsource,
    fun g hg hpath ↦ ?_⟩
  obtain ⟨hname, content, hlast, hcontent⟩ := htarget g hg hpath
  have hpresent : repo.file? branch g.targetPath = some content := hcontent
  refine ⟨hname, by rw [hpresent, hlast], fun halone ↦ ?_⟩
  obtain ⟨file, hfile, hsame, rfl⟩ := mem_of_lastContent hlast
  rw [hpresent, halone file hfile hsame]

/-- A single file meets no other one, and so its content is there. -/
theorem committed_content_single_file :
    let store : Store := .ofBranch "main" [("A.java", "class A")] true
    let settings : Settings := { newBranch := "migrated", sourceRoots := ["src"] }
    let request : Request := { mode := .manual }
    let response := (run .quiet settings request store).1
    let repo := (run .quiet settings request store).2.repo
    let generated := migrations (settings.engine request) (settings.assistantFor request)
      (sourceTexts store (discoveredFiles .quiet request store))
    request.operation = .migration ∧ request.dryRun = false ∧
      response.results = [.success "A.java" "robot/A.resource" none] ∧
      ∃ branch, response.status.branch = some branch ∧ ∃ g ∈ generated, g.sourcePath = "A.java" ∧
        (repo.file? branch g.targetPath = some g.content ↔ lastContent g.targetPath
          (outputFiles (settings.engine request) request generated) = some g.content) := by
  intro store settings request
  dsimp only
  have hresults : (run .quiet settings request store).1.results =
      [.success "A.java" "robot/A.resource" none] := by
    decide +kernel
  refine ⟨rfl, rfl, hresults, ?_⟩
  obtain ⟨branch, hbranch, ⟨g, hg, hsource⟩, htarget⟩ :=
    committed_content_iff .quiet settings request store rfl rfl
      (.success "A.java" "robot/A.resource" none) (hresults ▸ List.mem_cons_self) rfl
  exact ⟨branch, hbranch, g, hg, hsource, (htarget g hg hsource).2.1⟩

/-- Two files that differ in their extension meet at one target. Both results are successful, but
the content that was generated from the first file is lost. -/
theorem committed_content_lost :
    let store : Store := .ofBranch "main" [("A.java", "class A"), ("A.kt", "class A")] true
    let settings : Settings := { newBranch := "migrated", sourceRoots := ["src"] }
    let request : Request := { mode := .manual }
    let response := (run .quiet settings request store).1
    let repo := (run .quiet settings request store).2.repo
    request.operation = .migration ∧ request.dryRun = false ∧
      discoveredFiles .quiet request store =
        [⟨"A.java", .other, "main"⟩, ⟨"A.kt", .other, "main"⟩] ∧
      response.status.branch = some "migrated" ∧
      response.results = [.success "A.java" "robot/A.resource" none,
        .success "A.kt" "robot/A.resource" none] ∧
      repo.file? "migrated" "robot/A.resource" ≠ some ((settings.engine request).migrate
        (settings.assistantFor request) ⟨"A.java", .other, "main"⟩ "class A").1.content := by
  decide +kernel

end SuiteMigration.Run
