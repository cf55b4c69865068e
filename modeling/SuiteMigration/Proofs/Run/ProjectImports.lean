import Mathlib.Data.List.Nodup
import SuiteMigration.Proofs.Commit.LastBatch
import SuiteMigration.Proofs.Run.Conservation
import SuiteMigration.Proofs.Run.StoreRun
import SuiteMigration.Proofs.Skeleton
import SuiteMigration.Proofs.Text.Words

/-!
What the common resource of a migrated project imports. Its imports are made from the files that are
queued for the commit: a target that is reported as unchanged is not among them, and a target whose
batch fails later is. So the imports are the resources of the successful results only if these two
kinds of results make no difference.
-/

set_option autoImplicit false
set_option relaxedAutoImplicit false

namespace SuiteMigration.Run

open SuiteMigration.Repository SuiteMigration.Text

variable {R : Type}

/-! ### Results of queued files -/

def FileResult.isCommitted (r : FileResult) : Bool :=
  r.verdict == .success none

def FileResult.isUnchanged (r : FileResult) : Bool :=
  r.verdict == .success (some unchangedNote)

/-- The batch of the file failed. -/
def FileResult.isUncommitted (r : FileResult) : Bool :=
  r.verdict.reason?.any fun reason ↦ startsWith reason "commit failed: "

/-- The file was queued for the commit. -/
def FileResult.isQueued (r : FileResult) : Bool :=
  r.isCommitted || r.isUncommitted

/-- The targets of the results with a property. -/
def targetsOf (p : FileResult → Bool) (results : List FileResult) : List String :=
  (results.filter p).filterMap FileResult.target

theorem mem_targetsOf {p : FileResult → Bool} {results : List FileResult} {target : String} :
    target ∈ targetsOf p results ↔ ∃ r ∈ results, p r = true ∧ r.target = some target := by
  simp only [targetsOf, List.mem_filterMap, List.mem_filter, and_assoc]

/-- The result of a file that is not queued: it failed earlier, or was left unchanged. -/
def Unqueued (r : FileResult) : Prop :=
  r.isQueued = false ∧ (r.verdict.isSuccess = true → r.isUnchanged = true)

/-- A queued file has a result that names its target, and other files have other results. -/
def ReportsQueue (items : List Commit.Item) (r : FileResult) : Prop :=
  (∃ item ∈ items, item.source = some r.source ∧ r.isQueued = true ∧ r.target = some item.path) ∨
    r.source ∉ sources items ∧ Unqueued r

theorem unqueued_failed {source reason : String} {target : Option String}
    (h : startsWith reason "commit failed: " = false) :
    Unqueued (.failed source target reason) := by
  refine ⟨?_, nofun⟩
  rw [FileResult.isQueued, FileResult.isUncommitted]
  simp [FileResult.isCommitted, FileResult.failed, Verdict.reason?, h]

theorem unqueued_unread (path message : String) :
    Unqueued (.failed path none ("read failed: " ++ message)) := by
  refine unqueued_failed ?_
  rw [startsWith, Chars.startsWith, String.toList_append]
  rfl

theorem isQueued_committed (source target : String) :
    (FileResult.success source target none).isQueued = true := rfl

theorem isQueued_uncommitted (source message : String) (target : Option String) :
    (FileResult.failed source target ("commit failed: " ++ message)).isQueued = true := by
  have hstart : startsWith ("commit failed: " ++ message) "commit failed: " = true := by
    rw [startsWith, Chars.startsWith, String.toList_append, Chars.afterStart?_append]
    rfl
  rw [FileResult.isQueued, Bool.or_eq_true]
  exact Or.inr hstart

/-- A file that is not queued is left unchanged, or it failed with the error of its migration. -/
theorem unqueued_of_result? {t : TransformedFile} {r : FileResult}
    (hfailed : t.isSuccess = false → t.error = some "source file is empty")
    (h : TransformedFile.result? t = some r) : Unqueued r := by
  unfold TransformedFile.result? at h
  split at h
  next hsuccess =>
    rw [hfailed (by simpa using hsuccess)] at h
    obtain rfl := Option.some.inj h
    exact unqueued_failed (by decide)
  next =>
    split at h
    · obtain rfl := Option.some.inj h
      exact ⟨rfl, fun _ ↦ beq_self_eq_true _⟩
    · cases h

section Transforming

variable [Repository R]

theorem transformFile_failed {engine : Engine} {request : Request} {branch : String}
    {index : SourceIndex} {file : DiscoveredFile} {content : String} {s next : Session R}
    {t : TransformedFile}
    (h : Yields (transformFile engine request branch index file content) s t next)
    (hfailed : t.isSuccess = false) : t.error = some "source file is empty" := by
  unfold transformFile at h
  split at h
  · -- a target that exists already is always transformed
    dsimp only at h
    split at h
    all_goals
      obtain ⟨regenerated, _, _, h⟩ := yields_bind.mp h
      obtain ⟨rfl, _⟩ := yields_pure.mp h
      cases hfailed
  · obtain ⟨rfl, _⟩ := yields_migrateFile.mp h
    exact Engine.migrate_failed hfailed
  · obtain ⟨fresh, middle, hfresh, h⟩ := yields_bind.mp h
    obtain ⟨rfl, _⟩ := yields_migrateFile.mp hfresh
    split at h
    next hsuccess =>
      obtain ⟨result, _, _, h⟩ := yields_bind.mp h
      split at h
      · obtain ⟨rfl, _⟩ := yields_pure.mp h
        rw [hsuccess] at hfailed
        cases hfailed
      · dsimp only at h
        split at h
        · obtain ⟨rfl, _⟩ := yields_pure.mp h
          rw [hsuccess] at hfailed
          cases hfailed
        · obtain ⟨rfl, _⟩ := yields_pure.mp h
          cases hfailed
    next =>
      obtain ⟨rfl, _⟩ := yields_pure.mp h
      exact Engine.migrate_failed hfailed

/-- Every queued file has a source. -/
theorem transformFrom_source {observer : Observer} {engine : Engine} {request : Request}
    {branch : String} {index : SourceIndex} {total done : Nat}
    {loaded : List (DiscoveredFile × String)} {items : List Commit.Item} {s next : Session R}
    (h : Yields (transformFrom observer engine request branch index total done loaded) s items
      next) : ∀ item ∈ items, ∃ source, item.source = some source := by
  induction loaded generalizing done items s next with
  | nil =>
    obtain ⟨rfl, _⟩ := yields_pure.mp h
    exact nofun
  | cons pair rest ih =>
    obtain ⟨t, _, _, h⟩ := yields_bind.mp h
    obtain ⟨first, _, hrecord, h⟩ := yields_bind.mp h
    obtain ⟨_, _, _, h⟩ := yields_bind.mp h
    obtain ⟨others, _, hrest, h⟩ := yields_bind.mp h
    obtain ⟨rfl, _⟩ := yields_pure.mp h
    intro item hitem
    rcases List.mem_append.mp hitem with hitem | hitem
    · obtain ⟨_, _, _, hrecord⟩ := yields_bind.mp hrecord
      split at hrecord
      · obtain ⟨_, _, _, hrecord⟩ := yields_bind.mp hrecord
        obtain ⟨rfl, _⟩ := yields_pure.mp hrecord
        cases hitem
      · obtain ⟨rfl, _⟩ := yields_pure.mp hrecord
        obtain rfl := List.mem_singleton.mp hitem
        exact ⟨_, rfl⟩
    · exact ih hrest item hitem

theorem transformAll_source {observer : Observer} {engine : Engine} {request : Request}
    {branch : String} {loaded : List (DiscoveredFile × String)} {items : List Commit.Item}
    {s next : Session R}
    (h : Yields (transformAll observer engine request branch loaded) s items next) :
    ∀ item ∈ items, ∃ source, item.source = some source := by
  obtain ⟨_, _, _, h⟩ := yields_bind.mp h
  dsimp only at h
  split at h
  all_goals
    obtain ⟨index, _, _, h⟩ := yields_bind.mp h
    obtain ⟨_, _, hfrom, h⟩ := yields_bind.mp h
    obtain ⟨_, _, _, h⟩ := yields_bind.mp h
    obtain ⟨rfl, _⟩ := yields_pure.mp h
    exact transformFrom_source hfrom

end Transforming

/-! ### Results and the queue -/

section Queue

variable {dry : Bool} {files : List DiscoveredFile} {pending : List String} {queued : Nat}
  {s : Session R}

theorem Ledger.nodup_paths (h : Ledger dry files pending queued s) :
    (s.entries.map fun e ↦ e.file.path).Nodup := by
  have hdistinct := h.distinct
  rwa [← h.files_eq, List.map_map] at hdistinct

theorem Ledger.nodup_pending (h : Ledger dry files pending queued s) : pending.Nodup := by
  have hsublist : (unsettled s.entries).Sublist (s.entries.map fun e ↦ e.file.path) :=
    List.filter_sublist.map _
  exact h.pending_perm.nodup_iff.mp (hsublist.nodup h.nodup_paths)

/-- A row with the path of a pending file has no result. -/
theorem Ledger.result_of_pending {path : String} (h : Ledger dry files pending queued s)
    (hpath : path ∈ pending) : ∀ e ∈ s.entries, e.file.path = path → e.result = none := by
  intro e he hsame
  obtain ⟨other, hother, rfl⟩ := List.mem_map.mp (h.pending_perm.mem_iff.mpr hpath)
  obtain ⟨hmem, hnone⟩ := List.mem_filter.mp hother
  obtain rfl : e = other := List.inj_on_of_nodup_map h.nodup_paths he hmem hsame
  exact Option.isNone_iff_eq_none.mp hnone

/-- Once nothing is pending every row has a result. -/
theorem Ledger.exists_result (h : Ledger dry files [] queued s) :
    ∀ e ∈ s.entries, ∃ r, e.result = some r := by
  intro e he
  have hmem : e.file.path ∉ unsettled s.entries := by
    rw [h.pending_perm.eq_nil]
    exact List.not_mem_nil
  refine Option.ne_none_iff_exists'.mp fun hnone ↦ hmem (List.mem_map.mpr ⟨e, ?_, rfl⟩)
  exact List.mem_filter.mpr ⟨he, Option.isNone_iff_eq_none.mpr hnone⟩

/-- Before the queue is written no result is about a queued file. -/
theorem Table.reportsQueue {items : List Commit.Item} (h : Table files Unqueued s)
    (hledger : Ledger dry files (sources items) queued s) :
    Table files (ReportsQueue items) s := by
  refine ⟨h.files_eq, h.source_eq, fun e he r hr ↦ Or.inr ⟨fun hsource ↦ ?_, h.holds e he r hr⟩⟩
  have hnone := hledger.result_of_pending hsource e he (h.source_eq e he r hr).symm
  rw [hnone] at hr
  cases hr

/-- The outcomes of the batches give results about the queue. -/
theorem settleOutcomes_reportsQueue {outcomes : List Commit.Outcome}
    {items skeleton : List Commit.Item}
    (houtcomes : outcomes.flatMap Commit.Outcome.items = items ++ skeleton)
    (hskeleton : sources skeleton = []) :
    Along (Carries (Table files (ReportsQueue items))) (settleOutcomes outcomes : Step R Unit) := by
  have hitem (outcome : Commit.Outcome) (houtcome : outcome ∈ outcomes) (item : Commit.Item)
      (hmem : item ∈ outcome.items) (source : String) (hsource : item.source = some source) :
      item ∈ items := by
    have hall : item ∈ items ++ skeleton :=
      houtcomes ▸ List.mem_flatMap.mpr ⟨outcome, houtcome, hmem⟩
    refine (List.mem_append.mp hall).resolve_right fun hshared ↦ ?_
    have hnone : source ∈ sources skeleton := List.mem_filterMap.mpr ⟨item, hshared, hsource⟩
    rw [hskeleton] at hnone
    cases hnone
  refine settleOutcomes_table ?_ ?_
  · intro outcome houtcome item hmem ids source _ hsource
    exact Or.inl ⟨item, hitem outcome houtcome item hmem source hsource, hsource,
      isQueued_committed _ _, rfl⟩
  · intro outcome houtcome item hmem e source _ hsource
    exact Or.inl ⟨item, hitem outcome houtcome item hmem source hsource, hsource,
      isQueued_uncommitted _ _ _, rfl⟩

/-- Where sources occur once, no two items have the same one. -/
theorem eq_of_source {items : List Commit.Item} (hnodup : (sources items).Nodup) {source : String}
    {item other : Commit.Item} (hitem : item ∈ items) (hother : other ∈ items)
    (hsource : item.source = some source) (hsame : other.source = some source) : other = item := by
  obtain ⟨before, after, rfl⟩ := List.append_of_mem hitem
  have hsplit : sources (before ++ item :: after) =
      sources before ++ source :: sources after := by
    rw [sources, List.filterMap_append, List.filterMap_cons, hsource]
    rfl
  rw [hsplit, List.nodup_middle, List.nodup_cons, List.mem_append] at hnodup
  rcases List.mem_append.mp hother with hbefore | hrest
  · exact absurd (Or.inl (List.mem_filterMap.mpr ⟨other, hbefore, hsame⟩)) hnodup.1
  · rcases List.mem_cons.mp hrest with rfl | hafter
    · rfl
    · exact absurd (Or.inr (List.mem_filterMap.mpr ⟨other, hafter, hsame⟩)) hnodup.1

/-- At the end the queued files are those whose results say so. -/
theorem mem_targetsOf_isQueued {items : List Commit.Item} (reason : String)
    (htable : Table files (ReportsQueue items) s) (hledger : Ledger dry files [] queued s)
    (hnodup : (sources items).Nodup)
    (hsource : ∀ item ∈ items, ∃ source, item.source = some source)
    (hfiles : ∀ source ∈ sources items, source ∈ files.map DiscoveredFile.path) (path : String) :
    path ∈ targetsOf FileResult.isQueued (s.entries.map (Entry.settled reason)) ↔
      path ∈ items.map Commit.Item.path := by
  rw [mem_targetsOf, List.mem_map]
  constructor
  · rintro ⟨r, hr, hqueued, htarget⟩
    obtain ⟨e, he, rfl⟩ := List.mem_map.mp hr
    obtain ⟨r, hresult⟩ := hledger.exists_result e he
    have hsettled : e.settled reason = r := by rw [Entry.settled, hresult]; rfl
    rw [hsettled] at hqueued htarget
    rcases htable.holds e he r hresult with ⟨item, hitem, _, _, hpath⟩ | ⟨_, hother, _⟩
    · rw [htarget] at hpath
      exact ⟨item, hitem, (Option.some.inj hpath).symm⟩
    · rw [hqueued] at hother
      cases hother
  · rintro ⟨item, hitem, rfl⟩
    obtain ⟨source, hitemSource⟩ := hsource item hitem
    have hmem : source ∈ sources items := List.mem_filterMap.mpr ⟨item, hitem, hitemSource⟩
    have hrow : source ∈ s.entries.map fun e ↦ e.file.path := by
      have hpath := hfiles source hmem
      rwa [← hledger.files_eq, List.map_map] at hpath
    obtain ⟨e, he, rfl⟩ := List.mem_map.mp hrow
    obtain ⟨r, hresult⟩ := hledger.exists_result e he
    have hsettled : e.settled reason = r := by rw [Entry.settled, hresult]; rfl
    have hpath : r.source = e.file.path := htable.source_eq e he r hresult
    refine ⟨r, List.mem_map.mpr ⟨e, he, hsettled⟩, ?_⟩
    rcases htable.holds e he r hresult with ⟨other, hother, hsame, hqueued, htarget⟩ | ⟨hno, _⟩
    · -- sources are distinct, so the result is about this item
      rw [hpath] at hsame
      obtain rfl := eq_of_source hnodup hitem hother hitemSource hsame
      exact ⟨hqueued, htarget⟩
    · rw [hpath] at hno
      exact absurd hmem hno

end Queue

/-! ### A whole run -/

variable [Repository R]

/-- The phases after discovery up to the writing of the batches. -/
def writeOutput (observer : Observer) (settings : Settings) (engine : Engine) (request : Request)
    (branches : List String) (files : List DiscoveredFile) : Step R (List Commit.Outcome) := do
  let branch ← prepareBranch settings request branches
  let loaded ← readFiles observer settings.reading files
  let items ← transformAll observer engine request branch loaded
  let skeleton ← skeletonItems observer engine request items
  announce observer s!"Committing {items.length} files" .committing 80
  let batches := Commit.planBatches items skeleton (batchSize settings.committing request)
  count fun s ↦ { s with batches := batches.length }
  writeBatches observer settings.committing branch batches

/-- All phases of a run up to the writing of the batches. Without files there are none. -/
def writePhases (observer : Observer) (settings : Settings) (request : Request) :
    Step R (List Commit.Outcome) := do
  let branches ← validateAccess observer request
  let files ← discoverFiles observer request
  if files.isEmpty then return []
  else writeOutput observer settings (settings.engine request) request branches files

/-- The outcomes of the batches of a run that writes; none if it does not come to that. -/
def batchOutcomes (observer : Observer) (settings : Settings) (request : Request) (repo : R) :
    List Commit.Outcome :=
  match (exec (writePhases observer settings request) (startSession settings request repo)).1 with
  | .ok outcomes => outcomes
  | .error _ => []

theorem prepareBranch_branch {settings : Settings} {request : Request} {branches : List String}
    {s next : Session R} {branch : String}
    (h : Yields (prepareBranch settings request branches) s branch next) :
    next.status.branch = some branch := by
  have hlast (t : Session R) (name : String)
      (hrest : Yields (do
        modify fun s ↦ { s with status := { s.status with branch := some name } }
        return name : Step R String) t branch next) : next.status.branch = some branch := by
    simp only [yields_bind, yields_modify, yields_pure] at hrest
    obtain ⟨_, _, rfl, rfl, rfl⟩ := hrest
    rfl
  unfold prepareBranch at h
  dsimp only at h
  generalize (if request.operation.isTransformationOnly = true then request.readBranch
    else request.targetBranch.getD settings.newBranch) = name at h
  split at h
  · obtain ⟨_, _, _, h⟩ := yields_bind.mp h
    exact hlast _ _ h
  · exact hlast _ _ h

/-- Reading keeps the branch for the output. -/
theorem readFiles_branch {observer : Observer} {policy : Reading.Policy}
    {files : List DiscoveredFile} {s next : Session R} {loaded : List (DiscoveredFile × String)}
    (h : Yields (readFiles observer policy files) s loaded next) :
    next.status.branch = s.status.branch := by
  simp only [readFiles, yields_bind, yields_announce, yields_enter] at h
  obtain ⟨_, _, ⟨_, rfl⟩, outcomes, _, hpool, _, _, rfl, hcollect⟩ := h
  obtain ⟨_, entries, summary, rfl⟩ := collectRead_yields hcollect
  obtain ⟨_, _, _, rfl⟩ := readPool_yields hpool
  rfl

omit [Repository R] in
/-- The items of a migration for its shared files are these files. -/
theorem skeletonItems_files {observer : Observer} {engine : Engine} {request : Request}
    {items skeleton : List Commit.Item} {s next : Session R}
    (hoperation : request.operation.isTransformationOnly = false)
    (h : Yields (skeletonItems observer engine request items) s skeleton next) :
    Skeleton.files engine.layout.targetRoot engine.library request.mode
      (items.map Commit.Item.path) = .ok (skeleton.map Commit.Item.write) := by
  unfold skeletonItems at h
  rw [hoperation, if_neg Bool.false_ne_true] at h
  obtain ⟨_, _, _, h⟩ := yields_bind.mp h
  split at h
  next => exact absurd h yields_throw
  next shared hshared =>
    obtain ⟨_, _, _, h⟩ := yields_bind.mp h
    obtain ⟨rfl, _⟩ := yields_pure.mp h
    rw [hshared, List.map_map]
    exact congrArg Except.ok (List.map_id shared).symm

/-- What holds of a migration when its batches are written: the files that could be transformed are
queued and without a result, and the batches hold them and then the shared files. If the last batch
is written, its files are on the branch for the output. -/
structure Written [Durable R] (engine : Engine) (request : Request) (files : List DiscoveredFile)
    (branch : String) (items skeleton : List Commit.Item) (outcomes : List Commit.Outcome)
    (s : Session R) : Prop where
  ledger : Ledger false files (sources items) (sources items).length s
  table : Table files Unqueued s
  source : ∀ item ∈ items, ∃ source, item.source = some source
  branch_eq : s.status.branch = some branch
  shared : Skeleton.files engine.layout.targetRoot engine.library request.mode
    (items.map Commit.Item.path) = .ok (skeleton.map Commit.Item.write)
  shared_source : sources skeleton = []
  batches : ∃ size, outcomes.map Commit.Outcome.items = Commit.planBatches items skeleton size
  file?_eq : ∀ outcome, outcomes.getLast? = some outcome → outcome.isOk = true →
    ∀ path content, lastContent path (outcome.items.map Commit.Item.write) = some content →
      Durable.file? s.repo branch path = some content

/-- Until the batches are written no result is about a queued file. -/
theorem writeOutput_unqueued {files : List DiscoveredFile} (observer : Observer)
    (settings : Settings) (engine : Engine) (request : Request) (branches : List String)
    (discovered : List DiscoveredFile) :
    Along (Carries (Table files Unqueued))
      (writeOutput observer settings engine request branches discovered : Step R _) :=
  (prepareBranch_sameTable _ _ _).table.bind fun _ ↦
    (readFiles_table unqueued_unread _ _ _).bind fun _ ↦
      (transformAll_table (fun _ _ _ _ _ _ hfile _ hresult ↦
        unqueued_of_result? (transformFile_failed hfile) hresult) _).bind fun _ ↦
        (skeletonItems_table _ _ _ _).bind fun _ ↦ (announce_sameTable _ _ _ _).table.bind
          fun _ ↦ (count_table _).bind fun _ ↦ (writeBatches_sameTable _ _ _ _).table

theorem writeOutput_written [Durable R] {observer : Observer} {settings : Settings}
    {engine : Engine} {request : Request} {branches : List String} {files : List DiscoveredFile}
    {outcomes : List Commit.Outcome} {s written : Session R}
    (hoperation : request.operation.isTransformationOnly = false)
    (hledger : Ledger false files (files.map DiscoveredFile.path) 0 s)
    (htable : Table files Unqueued s)
    (h : Yields (writeOutput observer settings engine request branches files) s outcomes written) :
    ∃ branch items skeleton,
      Written engine request files branch items skeleton outcomes written := by
  have hrows := (writeOutput_unqueued observer settings engine request branches files).yields h
    htable
  obtain ⟨branch, prepared, hprepare, h⟩ := yields_bind.mp h
  obtain ⟨loaded, ready, hread, h⟩ := yields_bind.mp h
  obtain ⟨items, transformed, htransform, h⟩ := yields_bind.mp h
  obtain ⟨skeleton, shared, hskeleton, h⟩ := yields_bind.mp h
  obtain ⟨_, announced, hannounce, h⟩ := yields_bind.mp h
  obtain ⟨_, counted, hcount, hwrite⟩ := yields_bind.mp h
  have hloaded := readFiles_ledger (hledger.frame (prepareBranch_sameTable _ _ _) hprepare) hread
  obtain ⟨hqueue, hsources⟩ := skeletonItems_ledger (transformAll_ledger hloaded htransform)
    hskeleton
  have hcounted : Ledger false files (sources items) (sources items).length counted := by
    obtain rfl := yields_count.mp hcount
    refine (hqueue.frame (announce_sameTable _ _ _ _) hannounce).recount fun m n hb ↦ ?_
    exact ⟨hb.discovered_eq, hb.transformed_eq, hb.failed_eq, hb.kept, nofun⟩
  have hbranch : counted.status.branch = some branch := by
    -- no phase after the preparation renames the branch, whatever it does to the repository
    have hreadOnly : ReadOnly fun _ : R ↦ () := ⟨fun _ _ _ ↦ rfl, fun _ _ _ _ ↦ rfl⟩
    have hkept : SameView (fun _ : R ↦ ()) ready counted :=
      trans_of (SameView _) ((transformAll_sameView hreadOnly _ _ _ _ _).yields htransform)
        (trans_of (SameView _) ((skeletonItems_sameView _ _ _ _).yields hskeleton)
          (trans_of (SameView _) ((announce_sameView _ _ _ _).yields hannounce)
            ((count_sameView _).yields hcount)))
    rw [hkept.2, readFiles_branch hread, prepareBranch_branch hprepare]
  have hwritten := hcounted.frame (writeBatches_sameTable _ _ _ _) hwrite
  have hitems := writeBatches_items hwrite
  obtain ⟨stops, _, houtcomes, rfl⟩ := writeBatches_yields hwrite
  refine ⟨branch, items, skeleton, hwritten, hrows, transformAll_source htransform, hbranch,
    skeletonItems_files hoperation hskeleton, hsources, ⟨_, hitems⟩, ?_⟩
  intro outcome hlast hok path content hcontent
  rw [← houtcomes] at hlast
  exact Commit.file?_of_commitFrom hlast hok hcontent

/-- A migration that is not dry and that nothing stops writes its batches and settles the queue by
their outcomes; then neither results nor files change any more. -/
theorem process_settled [Durable R] {observer : Observer} {settings : Settings} {engine : Engine}
    {request : Request} {branches : List String} {files : List DiscoveredFile}
    {s last : Session R} {u : Unit}
    (hoperation : request.operation.isTransformationOnly = false) (hdry : request.dryRun = false)
    (h : Yields (process observer settings engine request branches files) s u last) :
    ∃ outcomes written settled,
      Yields (writeOutput observer settings engine request branches files) s outcomes written ∧
        Yields (settleOutcomes outcomes) written () settled ∧ SameTable settled last ∧
        SameView Durable.file? settled last := by
  obtain ⟨branch, prepared, hprepare, h⟩ := yields_bind.mp h
  obtain ⟨loaded, ready, hread, h⟩ := yields_bind.mp h
  obtain ⟨items, transformed, htransform, h⟩ := yields_bind.mp h
  obtain ⟨skeleton, shared, hskeleton, h⟩ := yields_bind.mp h
  obtain ⟨_, committed, hcommit, h⟩ := yields_bind.mp h
  obtain ⟨_, announced, hannounce, hcommit⟩ := yields_bind.mp hcommit
  have hsome : (!items.isEmpty || !skeleton.isEmpty) = true := by
    have hfiles := skeletonItems_files hoperation hskeleton
    cases skeleton with
    | nil =>
      have hcommon := Skeleton.lastContent_files hfiles
      cases hcommon
    | cons item rest => simp
  rw [hdry] at hcommit
  dsimp only at hcommit
  rw [if_neg Bool.false_ne_true, if_pos hsome] at hcommit
  obtain ⟨_, counted, hcount, hcommit⟩ := yields_bind.mp hcommit
  obtain ⟨outcomes, written, hwrite, hcommit⟩ := yields_bind.mp hcommit
  obtain ⟨_, settled, hsettle, henter⟩ := yields_bind.mp hcommit
  obtain ⟨_, pulled, hpull, hlast⟩ := yields_bind.mp h
  refine ⟨outcomes, written, settled, ?_, hsettle, ?_, ?_⟩
  · exact yields_bind.mpr ⟨_, _, hprepare, yields_bind.mpr ⟨_, _, hread, yields_bind.mpr ⟨_, _,
      htransform, yields_bind.mpr ⟨_, _, hskeleton, yields_bind.mpr ⟨_, _, hannounce,
        yields_bind.mpr ⟨_, _, hcount, hwrite⟩⟩⟩⟩⟩⟩
  · exact trans_of SameTable ((enter_sameTable _ _).yields henter)
      (trans_of SameTable ((requestPull_sameTable _ _ _).yields hpull)
        ((announce_sameTable _ _ _ _).yields hlast))
  · exact trans_of (SameView Durable.file?) ((enter_sameView _ _).yields henter)
      (trans_of (SameView Durable.file?)
        ((requestPull_sameView Durable.openPullRequest_file? _ _ _).yields hpull)
        ((announce_sameView _ _ _ _).yields hlast))

/-- What a migration that writes its last batch has reached at its end. The results tell which files
were queued, and the common resource on the branch imports just these. -/
structure Imported [Durable R] (engine : Engine) (request : Request)
    (reason : String) (s : Session R) : Prop where
  common : ∃ branch, s.status.branch = some branch ∧
    Durable.file? s.repo branch
        (Skeleton.below engine.layout.targetRoot Skeleton.commonResource) =
      some (Skeleton.text (Skeleton.commonLines engine.layout.targetRoot (trim engine.library)
        request.mode (targetsOf FileResult.isQueued (s.entries.map (Entry.settled reason)))))
  unchanged : ∀ r ∈ s.entries.map (Entry.settled reason), r.isQueued = true ∨ Unqueued r

theorem Written.imported [Durable R] {engine : Engine} {request : Request}
    {files : List DiscoveredFile} {branch : String} {items skeleton : List Commit.Item}
    {outcomes : List Commit.Outcome} {outcome : Commit.Outcome} {s settled : Session R}
    (h : Written engine request files branch items skeleton outcomes s)
    (hlast : outcomes.getLast? = some outcome) (hok : outcome.isOk = true)
    (hsettle : Yields (settleOutcomes outcomes) s () settled) (reason : String) :
    Imported engine request reason settled := by
  obtain ⟨size, hbatches⟩ := h.batches
  have houtcomes : outcomes.flatMap Commit.Outcome.items = items ++ skeleton := by
    rw [List.flatMap_def, hbatches, Commit.flatten_planBatches]
  -- all results are there, and they are about the queue
  have htable : Table files (ReportsQueue items) settled :=
    (settleOutcomes_reportsQueue houtcomes h.shared_source).yields hsettle
      (h.table.reportsQueue h.ledger)
  have hledger : Ledger false files [] 0 settled := by
    refine settleOutcomes_ledger ?_ hsettle
    have hsources : sources (outcomes.flatMap Commit.Outcome.items) = sources items := by
      rw [houtcomes, sources, List.filterMap_append]
      change sources items ++ sources skeleton = _
      rw [h.shared_source, List.append_nil]
    rw [hsources, List.append_nil, Nat.add_zero]
    exact h.ledger
  have hfiles : ∀ source ∈ sources items, source ∈ files.map DiscoveredFile.path := by
    intro source hsource
    obtain ⟨e, he, rfl⟩ := List.mem_map.mp (h.ledger.pending_perm.mem_iff.mpr hsource)
    rw [← h.ledger.files_eq, List.map_map]
    exact List.mem_map_of_mem (List.mem_of_mem_filter he)
  have htargets := mem_targetsOf_isQueued reason htable hledger h.ledger.nodup_pending h.source
    hfiles
  have hsame : SameView Durable.file? s settled :=
    (settleOutcomes_sameView outcomes).yields hsettle
  refine ⟨⟨branch, hsame.2.trans h.branch_eq, ?_⟩, fun r hr ↦ ?_⟩
  · rw [hsame.1, Skeleton.commonLines_congr htargets]
    have hcommon := Skeleton.lastContent_files h.shared
    have hskeleton : skeleton ≠ [] := by
      rintro rfl
      cases hcommon
    obtain ⟨before, hbefore⟩ := Commit.getLast?_planBatches items hskeleton size
    have hitems : outcome.items = before ++ skeleton := by
      rw [← hbatches, List.getLast?_map, hlast] at hbefore
      exact Option.some.inj hbefore
    refine h.file?_eq outcome hlast hok _ _ ?_
    rw [hitems, List.map_append, lastContent_append, hcommon, Option.some_or]
  · obtain ⟨e, he, rfl⟩ := List.mem_map.mp hr
    obtain ⟨r, hresult⟩ := hledger.exists_result e he
    have hsettled : e.settled reason = r := by rw [Entry.settled, hresult]; rfl
    rw [hsettled]
    rcases htable.holds e he r hresult with ⟨_, _, _, hqueued, _⟩ | ⟨_, hunqueued⟩
    · exact Or.inl hqueued
    · exact Or.inr hunqueued

/-- The phases of a completed migration that writes its last batch. -/
theorem endSession_imported [Durable R] {observer : Observer} {settings : Settings}
    {request : Request} {repo : R} {outcome : Commit.Outcome}
    (hcompleted : (run observer settings request repo).1.status.phase = .completed)
    (hoperation : request.operation.isTransformationOnly = false) (hdry : request.dryRun = false)
    (hlast : (batchOutcomes observer settings request repo).getLast? = some outcome)
    (hok : outcome.isOk = true) (reason : String) :
    Imported (settings.engine request) request reason
      (endSession observer settings request repo) := by
  have hend := yields_of_completed hcompleted
  obtain ⟨branches, accessed, haccess, hrest⟩ := yields_bind.mp hend
  obtain ⟨found, next, hdiscover, hrest⟩ := yields_bind.mp hrest
  have hphases (outcomes : List Commit.Outcome) (t : Session R)
      (h : Yields (if found.isEmpty then return [] else
        writeOutput observer settings (settings.engine request) request branches found) next
          outcomes t) : batchOutcomes observer settings request repo = outcomes := by
    have hexec : Yields (writePhases observer settings request)
        (startSession settings request repo) outcomes t :=
      yields_bind.mpr ⟨_, _, haccess, yields_bind.mpr ⟨_, _, hdiscover, h⟩⟩
    rw [batchOutcomes, hexec]
  split at hrest
  next hempty =>
    rw [hphases [] next (by rw [if_pos hempty]; rfl)] at hlast
    cases hlast
  next hsome =>
    obtain ⟨outcomes, written, settled, hwrite, hsettle, hsameTable, hsameFiles⟩ :=
      process_settled hoperation hdry hrest
    rw [hphases outcomes written (by rw [if_neg hsome]; exact hwrite)] at hlast
    obtain ⟨_, _, _, rfl⟩ := (validateAccess_yields observer request rfl).mp haccess
    obtain ⟨_, hfound, rfl⟩ := (discoverFiles_yields observer request).mp hdiscover
    have hdistinct : (found.map DiscoveredFile.path).Nodup :=
      (discover_ascending request _ hfound).imp String.ne_of_lt
    obtain ⟨branch, items, skeleton, hwritten⟩ := writeOutput_written hoperation
      (Ledger.start hdistinct rfl rfl) (Table.start found rfl) hwrite
    obtain ⟨⟨name, hname, hcommon⟩, hreported⟩ := hwritten.imported hlast hok hsettle reason
    rw [← hsameTable.1] at hcommon hreported
    refine ⟨⟨name, hsameFiles.2.trans hname, ?_⟩, hreported⟩
    rw [hsameFiles.1]
    exact hcommon

/-- A property that holds of a result if one of two others does imports what these import. -/
theorem mem_importPaths_or {root path : String} {results : List FileResult}
    {p q either : FileResult → Bool} (h : ∀ r ∈ results, either r = (p r || q r)) :
    path ∈ Skeleton.importPaths root (targetsOf either results) ↔
      path ∈ Skeleton.importPaths root (targetsOf p results) ∨
        path ∈ Skeleton.importPaths root (targetsOf q results) := by
  have htargets (target : String) : target ∈ targetsOf either results ↔
      target ∈ targetsOf p results ∨ target ∈ targetsOf q results := by
    simp only [mem_targetsOf]
    constructor
    · rintro ⟨r, hr, heither, htarget⟩
      rw [h r hr, Bool.or_eq_true] at heither
      exact heither.imp (fun hp ↦ ⟨r, hr, hp, htarget⟩) fun hq ↦ ⟨r, hr, hq, htarget⟩
    · rintro (⟨r, hr, hp, htarget⟩ | ⟨r, hr, hq, htarget⟩)
      · exact ⟨r, hr, by rw [h r hr, hp, Bool.true_or], htarget⟩
      · exact ⟨r, hr, by rw [h r hr, hq, Bool.or_true], htarget⟩
  simp only [Skeleton.mem_importPaths, htargets, or_and_right, exists_or]

/-- Successful results of a run that is not dry are committed or unchanged. -/
theorem isSuccess_eq {r : FileResult} (h : r.isQueued = true ∨ Unqueued r) :
    r.verdict.isSuccess = (r.isCommitted || r.isUnchanged) := by
  obtain ⟨source, target, _ | reason⟩ := r
  · rcases h with hqueued | ⟨_, hunchanged⟩
    · rw [FileResult.isQueued, Bool.or_eq_true] at hqueued
      rw [hqueued.resolve_right Bool.false_ne_true]
      rfl
    · rw [hunchanged rfl, Bool.or_true]
      rfl
  · rfl

/-- The queued results import what the successful ones import exactly if the unchanged ones and the
uncommitted ones add nothing to the other side. -/
theorem importPaths_queued_eq_iff {root : String} {results : List FileResult}
    (hreported : ∀ r ∈ results, r.isQueued = true ∨ Unqueued r) :
    let imports := fun p ↦ Skeleton.importPaths root (targetsOf p results)
    imports FileResult.isQueued = imports (fun r ↦ r.verdict.isSuccess) ↔
      imports FileResult.isUnchanged ⊆ imports FileResult.isQueued ∧
        imports FileResult.isUncommitted ⊆ imports fun r ↦ r.verdict.isSuccess := by
  intro imports
  have hqueued (path : String) : path ∈ imports FileResult.isQueued ↔
      path ∈ imports FileResult.isCommitted ∨ path ∈ imports FileResult.isUncommitted :=
    mem_importPaths_or fun _ _ ↦ rfl
  have hsuccess (path : String) : path ∈ imports (fun r ↦ r.verdict.isSuccess) ↔
      path ∈ imports FileResult.isCommitted ∨ path ∈ imports FileResult.isUnchanged :=
    mem_importPaths_or fun r hr ↦ isSuccess_eq (hreported r hr)
  constructor
  · intro heq
    exact ⟨fun path hpath ↦ heq ▸ (hsuccess path).mpr (Or.inr hpath),
      fun path hpath ↦ heq ▸ (hqueued path).mpr (Or.inr hpath)⟩
  · rintro ⟨hunchanged, huncommitted⟩
    refine Skeleton.importPaths_ext fun path ↦ ⟨fun hpath ↦ ?_, fun hpath ↦ ?_⟩
    · rcases (hqueued path).mp hpath with hpath | hpath
      · exact (hsuccess path).mpr (Or.inl hpath)
      · exact huncommitted hpath
    · rcases (hsuccess path).mp hpath with hpath | hpath
      · exact (hqueued path).mpr (Or.inl hpath)
      · exact hunchanged hpath

/-- In a completed migration that is not dry and whose last batch is written, the common resource on
the branch for the output imports the resources among the targets that were queued, each once and in
ascending order. These are the resources of the successful results if and only if the unchanged
targets are imported anyway and the targets of failed batches have successful results as well. -/
theorem common_resource_imports [Durable R] (observer : Observer) (settings : Settings)
    (request : Request) (repo : R)
    (hcompleted : (run observer settings request repo).1.status.phase = .completed)
    (hoperation : request.operation ≠ .transformation) (hdry : request.dryRun = false)
    (hbatch : (batchOutcomes observer settings request repo).getLast?.any
      Commit.Outcome.isOk = true) :
    let engine := settings.engine request
    let root := engine.layout.targetRoot
    let response := (run observer settings request repo).1
    let imports := fun p ↦ Skeleton.importPaths root (targetsOf p response.results)
    (∃ branch, response.status.branch = some branch ∧
        Durable.file? (run observer settings request repo).2.repo branch
            (Skeleton.below root Skeleton.commonResource) =
          some (Skeleton.text (Skeleton.commonLines root (trim engine.library) request.mode
            (targetsOf FileResult.isQueued response.results)))) ∧
      (imports FileResult.isQueued).Pairwise (· < ·) ∧
      (∀ path, path ∈ imports FileResult.isQueued ↔
        (∃ r ∈ response.results, r.isQueued = true ∧
          ∃ target, r.target = some target ∧ Skeleton.relativePath root target = path) ∧
        endsWith path ".resource" = true ∧ path ≠ Skeleton.commonResource) ∧
      (imports FileResult.isQueued = imports (fun r ↦ r.verdict.isSuccess) ↔
        imports FileResult.isUnchanged ⊆ imports FileResult.isQueued ∧
          imports FileResult.isUncommitted ⊆ imports fun r ↦ r.verdict.isSuccess) := by
  intro engine root response imports
  have htransformation : request.operation.isTransformationOnly = false := by
    cases h : request.operation with
    | transformation => exact absurd h hoperation
    | _ => rfl
  obtain ⟨outcome, hlast, hok⟩ := (Option.any_eq_true _ _).mp hbatch
  obtain ⟨⟨branch, hbranch, hcommon⟩, hreported⟩ :=
    endSession_imported hcompleted htransformation hdry hlast hok
      (unsettledReason response.failure)
  rw [← run_results] at hcommon hreported
  refine ⟨⟨branch, (run_branch observer settings request repo).trans hbranch, hcommon⟩,
    Skeleton.importPaths_pairwise root _, fun path ↦ ?_, ?_⟩
  · rw [Skeleton.mem_importPaths]
    refine and_congr_left fun _ ↦ ?_
    simp only [mem_targetsOf]
    constructor
    · rintro ⟨target, ⟨r, hr, hqueued, htarget⟩, hpath⟩
      exact ⟨r, hr, hqueued, target, htarget, hpath⟩
    · rintro ⟨r, hr, hqueued, target, htarget, hpath⟩
      exact ⟨target, ⟨r, hr, hqueued, htarget⟩, hpath⟩
  · exact importPaths_queued_eq_iff hreported

/-- The first attempt at the only batch fails in passing; the second one writes the file and the
common resource that imports it. -/
theorem common_resource_imports_retried :
    let repo : Faulty Store :=
      ⟨.ofBranch "main" [("A.java", "class A")] true, { writes := [some ⟨.timeout, "slow"⟩] }⟩
    let settings : Settings := { newBranch := "migrated", sourceRoots := ["src"] }
    let request : Request := { mode := .manual }
    let response := (run .quiet settings request repo).1
    let root := (settings.engine request).layout.targetRoot
    response.status.phase = .completed ∧ request.operation ≠ .transformation ∧
      request.dryRun = false ∧
      (batchOutcomes .quiet settings request repo).getLast?.any Commit.Outcome.isOk = true ∧
      Skeleton.importPaths root (targetsOf FileResult.isQueued response.results) =
        ["A.resource"] ∧
      ∃ branch, response.status.branch = some branch ∧
        Durable.file? (run .quiet settings request repo).2.repo branch
            (Skeleton.below root Skeleton.commonResource) =
          some (Skeleton.text (Skeleton.commonLines root
            (trim (settings.engine request).library) request.mode
              (targetsOf FileResult.isQueued response.results))) := by
  intro repo settings request
  dsimp only
  obtain ⟨hcompleted, hbatch, himports⟩ :
      (run .quiet settings request repo).1.status.phase = .completed ∧
        (batchOutcomes .quiet settings request repo).getLast?.any Commit.Outcome.isOk = true ∧
        Skeleton.importPaths (settings.engine request).layout.targetRoot
          (targetsOf FileResult.isQueued (run .quiet settings request repo).1.results) =
            ["A.resource"] := by
    decide +kernel
  have hoperation : request.operation ≠ .transformation := by decide
  obtain ⟨hcommon, -⟩ :=
    common_resource_imports .quiet settings request repo hcompleted hoperation rfl hbatch
  exact ⟨hcompleted, hoperation, rfl, hbatch, himports, hcommon⟩

/-- A target that is left unchanged has a successful result, but the common resource does not import
it. -/
theorem unchanged_resource_not_imported :
    let store : Store := .ofBranch "main"
      [("A.java", "class A"), ("robot/A.resource", "# robomigrate: mode=enhanced tier=3\n")] true
    let settings : Settings := { newBranch := "migrated", sourceRoots := ["src"] }
    let request : Request := { operation := .migrationAndTransformation, mode := .manual }
    let response := (run .quiet settings request store).1
    response.status.phase = .completed ∧ request.dryRun = false ∧
      (batchOutcomes .quiet settings request store).getLast?.any Commit.Outcome.isOk = true ∧
      response.results = [.success "A.java" "robot/A.resource" (some unchangedNote)] ∧
      Skeleton.importPaths "robot" (targetsOf (fun r ↦ r.verdict.isSuccess) response.results) =
        ["A.resource"] ∧
      response.status.branch = some "migrated" ∧
      (run .quiet settings request store).2.repo.file? "migrated"
          "robot/resources/common.resource" =
        some (Skeleton.text (Skeleton.commonLines "robot" defaultLibrary .manual [])) ∧
      Skeleton.importPaths "robot" [] = [] := by
  decide +kernel

end SuiteMigration.Run
