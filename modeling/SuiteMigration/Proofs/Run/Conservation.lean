import Mathlib.Data.List.Nodup
import SuiteMigration.Proofs.Run.Phases
import SuiteMigration.Proofs.Run.ResultTable
import SuiteMigration.Repository.Store

/-!
No file is lost or counted twice. A file is without a result as long as it is to be read, to be
transformed or to be committed; the step that settles it counts it under one heading. So the counts
of a completed run add up to the files that were discovered.
-/

set_option autoImplicit false
set_option relaxedAutoImplicit false

namespace SuiteMigration.Run

open SuiteMigration.Repository

variable {R : Type}

/-- The paths of the files that have no result yet. -/
def unsettled (entries : List Entry) : List String :=
  (entries.filter fun e ↦ e.result.isNone).map fun e ↦ e.file.path

def Entry.succeeded (e : Entry) : Bool :=
  e.result.any fun r ↦ r.verdict.isSuccess

def Entry.failed (e : Entry) : Bool :=
  e.result.any fun r ↦ !r.verdict.isSuccess

@[simp] theorem isSuccess_failed (source : String) (target : Option String) (reason : String) :
    (FileResult.failed source target reason).verdict.isSuccess = false := rfl

/-- Where paths occur once, resolving a file without a result changes its row only. -/
theorem map_resolve_of_unsettled {entries : List Entry} {path : String}
    (hdistinct : (entries.map fun e ↦ e.file.path).Nodup) (hopen : path ∈ unsettled entries)
    (r : FileResult) :
    ∃ before e after, entries = before ++ e :: after ∧ e.file.path = path ∧ e.result = none ∧
      entries.map (Entry.resolve path r) =
        before ++ { e with result := some r } :: after := by
  obtain ⟨e, he, rfl⟩ := List.mem_map.mp hopen
  obtain ⟨hmem, hnone⟩ := List.mem_filter.mp he
  obtain ⟨before, after, rfl⟩ := List.append_of_mem hmem
  refine ⟨before, e, after, rfl, rfl, Option.isNone_iff_eq_none.mp hnone, ?_⟩
  rw [List.map_append, List.map_cons, List.nodup_middle, List.nodup_cons, ← List.map_append]
    at hdistinct
  have hother (list : List Entry) (hlist : ∀ other ∈ list, other ∈ before ++ after) :
      list.map (Entry.resolve e.file.path r) = list := by
    refine (List.map_congr_left fun other hmem ↦ ?_).trans (List.map_id list)
    have hne : other.file.path ≠ e.file.path := fun heq ↦
      hdistinct.1 (List.mem_map.mpr ⟨other, hlist other hmem, heq⟩)
    rw [Entry.resolve, if_neg (by simpa using hne)]
    rfl
  rw [List.map_append, List.map_cons, hother before fun _ h ↦ List.mem_append_left _ h,
    hother after fun _ h ↦ List.mem_append_right _ h]
  simp [Entry.resolve]

/-! ### The ledger -/

/-- The counts for numbers of files that succeeded, that failed and that are to be committed. A dry
run settles files without counting them, and writes nothing. -/
structure Balanced (dry : Bool) (discovered succeeded failed queued : Nat) (t : Summary) :
    Prop where
  discovered_eq : t.discovered = discovered
  transformed_eq : t.transformed = succeeded + t.commitFailures + queued
  failed_eq : failed = t.readFailures + t.transformFailures + t.commitFailures
  kept : dry = false → succeeded = t.unchanged + t.committed
  unwritten : dry = true → t.committed = 0 ∧ t.commitFailures = 0 ∧ t.batches = 0

section Balanced

variable {dry : Bool} {discovered succeeded failed queued : Nat} {t : Summary}

theorem Balanced.unread (h : Balanced dry discovered succeeded failed queued t) :
    Balanced dry discovered succeeded (failed + 1) queued
      { t with readFailures := t.readFailures + 1 } := by
  have hfailed : failed + 1 = t.readFailures + 1 + t.transformFailures + t.commitFailures := by
    rw [h.failed_eq]
    omega
  exact ⟨h.discovered_eq, h.transformed_eq, hfailed, h.kept, h.unwritten⟩

theorem Balanced.untransformed (h : Balanced dry discovered succeeded failed queued t)
    {file : TransformedFile} (hsuccess : file.isSuccess = false) :
    Balanced dry discovered succeeded (failed + 1) queued (t.addTransformed file) := by
  have hfailed : failed + 1 = t.readFailures + (t.transformFailures + 1) + t.commitFailures := by
    rw [h.failed_eq]
    omega
  rw [Summary.addTransformed, hsuccess, if_neg Bool.false_ne_true]
  exact ⟨h.discovered_eq, h.transformed_eq, hfailed, h.kept, h.unwritten⟩

theorem Balanced.unchanged (h : Balanced dry discovered succeeded failed queued t)
    {file : TransformedFile} (hsuccess : file.isSuccess = true)
    (hsame : (file.strategy == .unchanged) = true) :
    Balanced dry discovered (succeeded + 1) failed queued (t.addTransformed file) := by
  have htransformed : t.transformed + 1 = succeeded + 1 + t.commitFailures + queued := by
    rw [h.transformed_eq]
    omega
  have hkept (hdry : dry = false) : succeeded + 1 = t.unchanged + 1 + t.committed := by
    rw [h.kept hdry]
    omega
  simp only [Summary.addTransformed, hsuccess, hsame, if_true]
  exact ⟨h.discovered_eq, htransformed, h.failed_eq, hkept, h.unwritten⟩

/-- A file that is to be committed. -/
theorem Balanced.queue (h : Balanced dry discovered succeeded failed queued t)
    {file : TransformedFile} (hsuccess : file.isSuccess = true)
    (hnew : (file.strategy == .unchanged) = false) :
    Balanced dry discovered succeeded failed (queued + 1) (t.addTransformed file) := by
  have htransformed : t.transformed + 1 = succeeded + t.commitFailures + (queued + 1) := by
    rw [h.transformed_eq]
    omega
  simp only [Summary.addTransformed, hsuccess, hnew, if_true, Bool.false_eq_true, if_false]
  exact ⟨h.discovered_eq, htransformed, h.failed_eq, h.kept, h.unwritten⟩

theorem Balanced.commit (h : Balanced false discovered succeeded failed (queued + 1) t) :
    Balanced false discovered (succeeded + 1) failed queued
      { t with committed := t.committed + 1 } := by
  have htransformed : t.transformed = succeeded + 1 + t.commitFailures + queued := by
    rw [h.transformed_eq]
    omega
  have hkept : succeeded + 1 = t.unchanged + (t.committed + 1) := by
    rw [h.kept rfl]
    omega
  exact ⟨h.discovered_eq, htransformed, h.failed_eq, fun _ ↦ hkept, nofun⟩

theorem Balanced.uncommitted (h : Balanced false discovered succeeded failed (queued + 1) t) :
    Balanced false discovered succeeded (failed + 1) queued
      { t with commitFailures := t.commitFailures + 1 } := by
  have htransformed : t.transformed = succeeded + (t.commitFailures + 1) + queued := by
    rw [h.transformed_eq]
    omega
  have hfailed : failed + 1 = t.readFailures + t.transformFailures + (t.commitFailures + 1) := by
    rw [h.failed_eq]
    omega
  exact ⟨h.discovered_eq, htransformed, hfailed, h.kept, nofun⟩

/-- A file that a dry run would commit succeeds without being counted. -/
theorem Balanced.dryRun (h : Balanced true discovered succeeded failed (queued + 1) t) :
    Balanced true discovered (succeeded + 1) failed queued t := by
  have htransformed : t.transformed = succeeded + 1 + t.commitFailures + queued := by
    rw [h.transformed_eq]
    omega
  exact ⟨h.discovered_eq, htransformed, h.failed_eq, nofun, h.unwritten⟩

end Balanced

/-- The files without a result are those at the pending paths, and the counts are balanced for the
results there are and a number of files to be committed. -/
structure Ledger (dry : Bool) (files : List DiscoveredFile) (pending : List String) (queued : Nat)
    (s : Session R) : Prop where
  distinct : (files.map DiscoveredFile.path).Nodup
  files_eq : s.entries.map Entry.file = files
  pending_perm : (unsettled s.entries).Perm pending
  balanced : Balanced dry files.length (s.entries.countP Entry.succeeded)
    (s.entries.countP Entry.failed) queued s.summary

variable {dry : Bool} {files : List DiscoveredFile} {path : String} {pending : List String}
  {queued : Nat} {s : Session R}

theorem Ledger.reorder {others : List String} (h : Ledger dry files pending queued s)
    (hperm : pending.Perm others) : Ledger dry files others queued s :=
  ⟨h.distinct, h.files_eq, h.pending_perm.trans hperm, h.balanced⟩

/-- A step that leaves the table alone keeps the ledger. -/
theorem Ledger.frame {α : Type} {m : Step R α} {a : α} {next : Session R}
    (h : Ledger dry files pending queued s) (hm : Along SameTable m) (hyields : Yields m s a next) :
    Ledger dry files pending queued next := by
  obtain ⟨hentries, hsummary⟩ := hm.yields hyields
  exact ⟨h.distinct, hentries ▸ h.files_eq, hentries ▸ h.pending_perm,
    hentries ▸ hsummary ▸ h.balanced⟩

theorem Ledger.recount {summary : Summary} {left : Nat} (h : Ledger dry files pending queued s)
    (hbalanced : ∀ m n, Balanced dry files.length m n queued s.summary →
      Balanced dry files.length m n left summary) :
    Ledger dry files pending left { s with summary } :=
  ⟨h.distinct, h.files_eq, h.pending_perm, hbalanced _ _ h.balanced⟩

/-- A pending file that gets a result is no longer pending, and counts as succeeded or failed. -/
theorem Ledger.settle {summary : Summary} {left : Nat}
    (h : Ledger dry files (path :: pending) queued s) (r : FileResult)
    (hbalanced : ∀ m n, Balanced dry files.length m n queued s.summary →
      Balanced dry files.length (m + if r.verdict.isSuccess then 1 else 0)
        (n + if r.verdict.isSuccess then 0 else 1) left summary) :
    Ledger dry files pending left
      { s with entries := s.entries.map (Entry.resolve path r), summary } := by
  have hpaths : (s.entries.map fun e ↦ e.file.path).Nodup := by
    have hdistinct := h.distinct
    rwa [← h.files_eq, List.map_map] at hdistinct
  obtain ⟨before, e, after, hentries, hpath, hnone, hmap⟩ :=
    map_resolve_of_unsettled hpaths (h.pending_perm.mem_iff.mpr List.mem_cons_self) r
  have hopen := h.pending_perm
  have hcounts := hbalanced _ _ h.balanced
  refine ⟨h.distinct, ?_, ?_, ?_⟩
  · rw [hmap, ← h.files_eq, hentries]
    simp
  · rw [hmap]
    rw [hentries] at hopen
    simp only [unsettled, List.filter_append, List.filter_cons, hnone, Option.isNone_none, if_true,
      Option.isNone_some, Bool.false_eq_true, if_false, List.map_append, List.map_cons, hpath]
      at hopen ⊢
    exact (List.perm_middle.symm.trans hopen).cons_inv
  · rw [hmap]
    rw [hentries] at hcounts
    cases hr : r.verdict.isSuccess
    all_goals
      simp only [hr, List.countP_append, List.countP_cons, Entry.succeeded, Entry.failed, hnone,
        Option.any_none, Option.any_some, Bool.false_eq_true, if_false, if_true, Bool.not_true,
        Bool.not_false, Nat.add_zero] at hcounts ⊢
      exact hcounts

theorem length_eq_counts (entries : List Entry) :
    entries.length = entries.countP Entry.succeeded + entries.countP Entry.failed +
      (unsettled entries).length := by
  induction entries with
  | nil => rfl
  | cons e rest ih =>
    obtain ⟨file, _ | r⟩ := e
    · simp [unsettled, Entry.succeeded, Entry.failed] at ih ⊢
      omega
    · cases hr : r.verdict.isSuccess <;>
        simp [unsettled, Entry.succeeded, Entry.failed, hr] at ih ⊢ <;> omega

/-- Once nothing is pending, every file has succeeded or failed. -/
theorem Ledger.length_eq (h : Ledger dry files [] queued s) :
    files.length = s.entries.countP Entry.succeeded + s.entries.countP Entry.failed := by
  have hlength := length_eq_counts s.entries
  rwa [h.pending_perm.eq_nil, List.length_nil, Nat.add_zero, ← List.length_map Entry.file,
    h.files_eq] at hlength

/-! ### Reading -/

theorem Ledger.start {found : List DiscoveredFile}
    (hdistinct : (found.map DiscoveredFile.path).Nodup)
    (hentries : s.entries = found.map fun file ↦ { file })
    (hsummary : s.summary = { discovered := found.length }) :
    Ledger dry found (found.map DiscoveredFile.path) 0 s := by
  have hnone (P : FileResult → Bool) : s.entries.countP (fun e ↦ e.result.any P) = 0 := by
    rw [hentries, List.countP_eq_zero]
    intro e he
    obtain ⟨file, _, rfl⟩ := List.mem_map.mp he
    exact Bool.false_ne_true
  refine ⟨hdistinct, ?_, ?_, ?_⟩
  · rw [hentries, List.map_map]
    exact List.map_id found
  · rw [hentries, unsettled, List.filter_map, List.map_map]
    refine List.Perm.of_eq (congrArg _ (List.filter_eq_self.mpr fun _ _ ↦ rfl))
  · have hsucceeded : s.entries.countP Entry.succeeded = 0 := hnone _
    have hfailed : s.entries.countP Entry.failed = 0 := hnone _
    rw [hsummary, hsucceeded, hfailed]
    exact ⟨rfl, rfl, rfl, fun _ ↦ rfl, fun _ ↦ ⟨rfl, rfl, rfl⟩⟩

/-- A file that was read stays pending, and one that was not is settled. -/
theorem collectRead_ledger {outcomes : List Reading.Outcome} {others : List String}
    {loaded : List (DiscoveredFile × String)} {s next : Session R}
    (h : Ledger dry files (outcomes.map (fun o ↦ o.file.path) ++ others) queued s)
    (hread : Yields (collectRead outcomes) s loaded next) :
    Ledger dry files (loaded.map (fun pair ↦ pair.1.path) ++ others) queued next := by
  induction outcomes generalizing others loaded s with
  | nil =>
    obtain ⟨rfl, rfl⟩ := yields_pure.mp hread
    exact h
  | cons outcome rest ih =>
    rw [List.map_cons, List.cons_append] at h
    unfold collectRead at hread
    split at hread
    · obtain ⟨_, _, hrest, hlast⟩ := yields_bind.mp hread
      obtain ⟨rfl, rfl⟩ := yields_pure.mp hlast
      exact (ih (h.reorder List.perm_middle.symm) hrest).reorder List.perm_middle
    · simp only [yields_bind, yields_count, yields_resolve] at hread
      obtain ⟨_, _, rfl, _, _, rfl, hread⟩ := hread
      refine ih (h.settle _ fun _ _ hb ↦ ?_) hread
      exact hb.unread

/-! ### Transforming -/

/-- The files that items were made of; shared files were made of none. -/
def sources (items : List Commit.Item) : List String :=
  items.filterMap Commit.Item.source

/-- A transformed file stays pending if it is to be committed, and is settled otherwise. -/
theorem record_ledger {t : TransformedFile} {item : Option Commit.Item} {s next : Session R}
    (h : Ledger dry files (t.sourcePath :: pending) queued s)
    (hrecord : Yields (record t) s item next) :
    Ledger dry files (sources item.toList ++ pending) (queued + (sources item.toList).length)
      next := by
  simp only [record, yields_bind, yields_count] at hrecord
  obtain ⟨_, _, rfl, hrecord⟩ := hrecord
  unfold TransformedFile.result? at hrecord
  cases hsuccess : t.isSuccess with
  | false =>
    simp only [hsuccess, Bool.not_false, if_true, yields_bind, yields_resolve,
      yields_pure] at hrecord
    obtain ⟨_, _, rfl, rfl, rfl⟩ := hrecord
    exact h.settle _ fun _ _ hb ↦ hb.untransformed hsuccess
  | true =>
    cases hunchanged : t.strategy == .unchanged with
    | true =>
      simp only [hsuccess, hunchanged, Bool.not_true, Bool.false_eq_true, if_false, if_true,
        yields_bind, yields_resolve, yields_pure] at hrecord
      obtain ⟨_, _, rfl, rfl, rfl⟩ := hrecord
      exact h.settle _ fun _ _ hb ↦ hb.unchanged hsuccess hunchanged
    | false =>
      simp only [hsuccess, hunchanged, Bool.not_true, Bool.false_eq_true, if_false,
        yields_pure] at hrecord
      obtain ⟨rfl, rfl⟩ := hrecord
      exact h.recount fun _ _ hb ↦ hb.queue hsuccess hunchanged

/-! ### Committing -/

/-- A file whose batch was written or failed is settled, and counted as such. -/
theorem settleItem_ledger {result : Except Error (List String)} {item : Commit.Item}
    {s next : Session R} {u : Unit}
    (h : Ledger false files (sources [item] ++ pending) ((sources [item]).length + queued) s)
    (hsettle : Yields (settleItem result item) s u next) :
    Ledger false files pending queued next := by
  unfold settleItem at hsettle
  unfold sources at h
  split at hsettle
  next source hsource =>
    simp only [List.filterMap_cons, hsource, List.filterMap_nil, List.singleton_append,
      List.length_singleton, Nat.add_comm 1 queued] at h
    split at hsettle
    · simp only [yields_bind, yields_count, yields_resolve] at hsettle
      obtain ⟨_, _, rfl, rfl⟩ := hsettle
      exact h.settle _ fun _ _ hb ↦ hb.commit
    · simp only [yields_bind, yields_count, yields_resolve] at hsettle
      obtain ⟨_, _, rfl, rfl⟩ := hsettle
      exact h.settle _ fun _ _ hb ↦ hb.uncommitted
  next hsource =>
    obtain ⟨_, rfl⟩ := yields_pure.mp hsettle
    have hnone : item.source = none := Option.eq_none_iff_forall_ne_some.mpr hsource
    simpa [hnone] using h

theorem settleItems_ledger {result : Except Error (List String)} {items : List Commit.Item}
    {s next : Session R} {u : Unit}
    (h : Ledger false files (sources items ++ pending) ((sources items).length + queued) s)
    (hsettle : Yields (settleItems result items) s u next) :
    Ledger false files pending queued next := by
  induction items generalizing s with
  | nil =>
    obtain ⟨_, rfl⟩ := yields_pure.mp hsettle
    simpa [sources] using h
  | cons item rest ih =>
    obtain ⟨_, middle, hitem, hrest⟩ := yields_bind.mp hsettle
    refine ih (settleItem_ledger ?_ hitem) hrest
    have hsplit : sources (item :: rest) = sources [item] ++ sources rest := by
      rw [sources, sources, sources, ← List.filterMap_append, List.singleton_append]
    rwa [hsplit, List.length_append, List.append_assoc, Nat.add_assoc] at h

theorem settleOutcomes_ledger {outcomes : List Commit.Outcome} {s next : Session R} {u : Unit}
    (h : Ledger false files (sources (outcomes.flatMap Commit.Outcome.items) ++ pending)
      ((sources (outcomes.flatMap Commit.Outcome.items)).length + queued) s)
    (hsettle : Yields (settleOutcomes outcomes) s u next) :
    Ledger false files pending queued next := by
  induction outcomes generalizing s with
  | nil =>
    obtain ⟨_, rfl⟩ := yields_pure.mp hsettle
    simpa [sources] using h
  | cons outcome rest ih =>
    obtain ⟨_, middle, hitems, hrest⟩ := yields_bind.mp hsettle
    refine ih (settleItems_ledger ?_ hitems) hrest
    rwa [List.flatMap_cons, sources, List.filterMap_append, List.length_append, List.append_assoc,
      Nat.add_assoc] at h

theorem settleDry_ledger {items : List Commit.Item} {s next : Session R} {u : Unit}
    (h : Ledger true files (sources items ++ pending) ((sources items).length + queued) s)
    (hsettle : Yields (settleDry items) s u next) : Ledger true files pending queued next := by
  induction items generalizing s with
  | nil =>
    obtain ⟨_, rfl⟩ := yields_pure.mp hsettle
    simpa [sources] using h
  | cons item rest ih =>
    unfold settleDry at hsettle
    split at hsettle
    next source hsource =>
      obtain ⟨_, middle, hitem, hrest⟩ := yields_bind.mp hsettle
      obtain rfl := yields_resolve.mp hitem
      simp only [sources, List.filterMap_cons, hsource, List.cons_append,
        List.length_cons] at h
      rw [Nat.add_right_comm] at h
      refine ih (h.settle _ fun _ _ hb ↦ ?_) hrest
      exact hb.dryRun
    next hsource =>
      have hnone : item.source = none := Option.eq_none_iff_forall_ne_some.mpr hsource
      simp only [sources, List.filterMap_cons, hnone] at h
      exact ih h hsettle

/-! ### A whole run -/

variable [Repository R]

theorem readFiles_ledger {observer : Observer} {policy : Reading.Policy}
    {loaded : List (DiscoveredFile × String)} {s next : Session R}
    (h : Ledger dry files (files.map DiscoveredFile.path) queued s)
    (hread : Yields (readFiles observer policy files) s loaded next) :
    Ledger dry files (loaded.map fun pair ↦ pair.1.path) queued next := by
  obtain ⟨_, _, hannounce, hread⟩ := yields_bind.mp hread
  obtain ⟨outcomes, _, hpool, hread⟩ := yields_bind.mp hread
  obtain ⟨_, _, henter, hread⟩ := yields_bind.mp hread
  have hfiles : outcomes.map Reading.Outcome.file = files := by
    obtain ⟨stops, hdone, rfl, _⟩ := readPool_yields hpool
    exact (Reading.readAll_accounts _ _ _ _ _).1.outcomes hdone
  have hready := ((h.frame (announce_sameTable _ _ _ _) hannounce).frame
    (readPool_sameTable _ _ _) hpool).frame (enter_sameTable _ _) henter
  rw [← List.append_nil (loaded.map _)]
  refine collectRead_ledger (hready.reorder (List.Perm.of_eq ?_)) hread
  rw [List.append_nil]
  nth_rewrite 1 [← hfiles]
  rw [List.map_map]
  rfl

theorem transformFrom_ledger {observer : Observer} {engine : Engine} {request : Request}
    {branch : String} {index : SourceIndex} {total done : Nat}
    {loaded : List (DiscoveredFile × String)} {items : List Commit.Item} {others : List String}
    {s next : Session R}
    (h : Ledger dry files (loaded.map (fun pair ↦ pair.1.path) ++ others) queued s)
    (htransform : Yields (transformFrom observer engine request branch index total done loaded) s
      items next) :
    Ledger dry files (sources items ++ others) (queued + (sources items).length) next := by
  induction loaded generalizing done items others queued s with
  | nil =>
    obtain ⟨rfl, rfl⟩ := yields_pure.mp htransform
    exact h
  | cons pair rest ih =>
    obtain ⟨file, content⟩ := pair
    obtain ⟨t, middle, hfile, htransform⟩ := yields_bind.mp htransform
    obtain ⟨item, recorded, hrecord, htransform⟩ := yields_bind.mp htransform
    obtain ⟨_, notified, hnotify, htransform⟩ := yields_bind.mp htransform
    obtain ⟨later, _, hrest, hlast⟩ := yields_bind.mp htransform
    obtain ⟨rfl, rfl⟩ := yields_pure.mp hlast
    have hpath : t.sourcePath = file.path := transformFile_sourcePath hfile
    rw [List.map_cons, List.cons_append, ← hpath] at h
    have hrecorded := record_ledger (h.frame (transformFile_sameTable _ _ _ _ _ _) hfile) hrecord
    have hnotified := hrecorded.frame (notify_sameTable _ _) hnotify
    -- the item of this file stays pending while the rest is transformed
    have hmoved := hnotified.reorder (List.perm_append_comm_assoc ..)
    have hdone := (ih hmoved hrest).reorder (List.perm_append_comm_assoc ..)
    rw [sources, List.filterMap_append, List.length_append, List.append_assoc, ← Nat.add_assoc]
    exact hdone

theorem transformAll_ledger {observer : Observer} {engine : Engine} {request : Request}
    {branch : String} {loaded : List (DiscoveredFile × String)} {items : List Commit.Item}
    {s next : Session R} (h : Ledger dry files (loaded.map fun pair ↦ pair.1.path) 0 s)
    (htransform : Yields (transformAll observer engine request branch loaded) s items next) :
    Ledger dry files (sources items) (sources items).length next := by
  obtain ⟨_, announced, hannounce, htransform⟩ := yields_bind.mp htransform
  have hannounced := h.frame (announce_sameTable _ _ _ _) hannounce
  have hindexed : ∃ index ready, Ledger dry files (loaded.map fun pair ↦ pair.1.path) 0 ready ∧
      Yields (do
        let items ← transformFrom observer engine request branch index loaded.length 0 loaded
        enter .transforming 70
        return items : Step R (List Commit.Item)) ready items next := by
    dsimp only at htransform
    split at htransform
    · obtain ⟨index, ready, hindex, hrest⟩ := yields_bind.mp htransform
      exact ⟨index, ready, hannounced.frame (sourceIndex_sameTable _ _) hindex, hrest⟩
    · obtain ⟨_, _, hindex, hrest⟩ := yields_bind.mp htransform
      obtain ⟨rfl, rfl⟩ := yields_pure.mp hindex
      exact ⟨[], announced, hannounced, hrest⟩
  obtain ⟨index, ready, hready, hrest⟩ := hindexed
  obtain ⟨_, _, hfrom, hrest⟩ := yields_bind.mp hrest
  obtain ⟨_, _, henter, hlast⟩ := yields_bind.mp hrest
  obtain ⟨rfl, rfl⟩ := yields_pure.mp hlast
  rw [← List.append_nil (loaded.map _)] at hready
  have hdone := transformFrom_ledger hready hfrom
  rw [List.append_nil, Nat.zero_add] at hdone
  exact hdone.frame (enter_sameTable _ _) henter

omit [Repository R] in
/-- The shared files are counted for themselves, and no file was made into them. -/
theorem skeletonItems_ledger {observer : Observer} {engine : Engine} {request : Request}
    {items skeleton : List Commit.Item} {s next : Session R}
    (h : Ledger dry files pending queued s)
    (hskeleton : Yields (skeletonItems observer engine request items) s skeleton next) :
    Ledger dry files pending queued next ∧ sources skeleton = [] := by
  unfold skeletonItems at hskeleton
  split at hskeleton
  · obtain ⟨rfl, rfl⟩ := yields_pure.mp hskeleton
    exact ⟨h, rfl⟩
  · obtain ⟨_, _, hannounce, hskeleton⟩ := yields_bind.mp hskeleton
    have hready := h.frame (announce_sameTable _ _ _ _) hannounce
    split at hskeleton
    · exact absurd hskeleton yields_throw
    · simp only [yields_bind, yields_count, yields_pure] at hskeleton
      obtain ⟨_, _, rfl, rfl, rfl⟩ := hskeleton
      refine ⟨hready.recount fun m n hb ↦ ?_, ?_⟩
      · exact ⟨hb.discovered_eq, hb.transformed_eq, hb.failed_eq, hb.kept, hb.unwritten⟩
      · rw [sources, List.filterMap_map, List.filterMap_eq_nil_iff]
        exact fun _ _ ↦ rfl

theorem commitFiles_ledger {observer : Observer} {policy : Commit.Policy} {request : Request}
    {branch : String} {items skeleton : List Commit.Item} {s next : Session R} {u : Unit}
    (h : Ledger request.dryRun files (sources items) (sources items).length s)
    (hskeleton : sources skeleton = [])
    (hcommit : Yields (commitFiles observer policy request branch items skeleton) s u next) :
    Ledger request.dryRun files [] 0 next := by
  obtain ⟨_, announced, hannounce, hsettled⟩ := yields_bind.mp hcommit
  have hready : Ledger request.dryRun files (sources items ++ []) ((sources items).length + 0)
      announced := by
    rw [List.append_nil]
    exact h.frame (announce_sameTable _ _ _ _) hannounce
  dsimp only at hsettled
  split at hsettled
  next hdry =>
    obtain ⟨_, _, hsettle, henter⟩ := yields_bind.mp hsettled
    rw [hdry] at hready ⊢
    exact (settleDry_ledger hready hsettle).frame (enter_sameTable _ _) henter
  next hdry =>
    rw [Bool.eq_false_iff.mpr hdry] at hready ⊢
    split at hsettled
    next =>
      obtain ⟨_, counted, hcount, hrest⟩ := yields_bind.mp hsettled
      obtain ⟨outcomes, written, hwrite, hrest⟩ := yields_bind.mp hrest
      obtain ⟨_, _, hsettle, henter⟩ := yields_bind.mp hrest
      have hcounted : Ledger false files (sources items ++ []) ((sources items).length + 0)
          counted := by
        obtain rfl := yields_count.mp hcount
        refine hready.recount fun m n hb ↦ ?_
        exact ⟨hb.discovered_eq, hb.transformed_eq, hb.failed_eq, hb.kept, nofun⟩
      -- the outcomes are about all items, and about shared files, which have no source
      have hitems : sources (outcomes.flatMap Commit.Outcome.items) = sources items := by
        rw [List.flatMap_def, writeBatches_items hwrite, Commit.flatten_planBatches, sources,
          List.filterMap_append]
        change sources items ++ sources skeleton = _
        rw [hskeleton, List.append_nil]
      have hwritten := hcounted.frame (writeBatches_sameTable _ _ _ _) hwrite
      rw [← hitems] at hwritten
      exact (settleOutcomes_ledger hwritten hsettle).frame (enter_sameTable _ _) henter
    next hnone =>
      have hempty : items = [] := by
        cases items with
        | nil => rfl
        | cons item rest => exact absurd rfl hnone
      rw [hempty] at hready
      exact hready.frame (enter_sameTable _ _) hsettled

/-- The phases after discovery settle every file. -/
theorem process_ledger {observer : Observer} {settings : Settings} {engine : Engine}
    {request : Request} {branches : List String} {s last : Session R} {u : Unit}
    (h : Ledger request.dryRun files (files.map DiscoveredFile.path) 0 s)
    (hprocess : Yields (process observer settings engine request branches files) s u last) :
    Ledger request.dryRun files [] 0 last := by
  obtain ⟨branch, _, hbranch, hprocess⟩ := yields_bind.mp hprocess
  obtain ⟨loaded, _, hread, hprocess⟩ := yields_bind.mp hprocess
  obtain ⟨items, _, htransform, hprocess⟩ := yields_bind.mp hprocess
  obtain ⟨skeleton, _, hskeleton, hprocess⟩ := yields_bind.mp hprocess
  obtain ⟨_, _, hcommit, hprocess⟩ := yields_bind.mp hprocess
  obtain ⟨_, _, hpull, hannounce⟩ := yields_bind.mp hprocess
  have hloaded := readFiles_ledger (h.frame (prepareBranch_sameTable _ _ _) hbranch) hread
  have hitems := transformAll_ledger hloaded htransform
  obtain ⟨hshared, hsources⟩ := skeletonItems_ledger hitems hskeleton
  have hsettled := commitFiles_ledger hshared hsources hcommit
  exact (hsettled.frame (requestPull_sameTable _ _ _) hpull).frame (announce_sameTable _ _ _ _)
    hannounce

/-- At the end of a run that nothing stopped every discovered file is settled. -/
theorem execute_ledger {observer : Observer} {settings : Settings} {engine : Engine}
    {request : Request} {s last : Session R} {u : Unit} (hevents : s.events = [])
    (hsummary : s.summary = {})
    (hexecute : Yields (execute observer settings engine request) s u last) :
    ∃ found, Ledger request.dryRun found [] 0 last := by
  obtain ⟨branches, _, haccess, hrest⟩ := yields_bind.mp hexecute
  obtain ⟨found, _, hdiscover, hrest⟩ := yields_bind.mp hrest
  obtain ⟨_, _, _, rfl⟩ := (validateAccess_yields observer request hevents).mp haccess
  obtain ⟨_, hfound, rfl⟩ := (discoverFiles_yields observer request).mp hdiscover
  have hdistinct : (found.map DiscoveredFile.path).Nodup :=
    (discover_ascending request _ hfound).imp String.ne_of_lt
  refine ⟨found, ?_⟩
  split at hrest
  next hempty =>
    obtain rfl : found = [] := List.isEmpty_iff.mp hempty
    exact (Ledger.start hdistinct rfl (by simp [hsummary])).frame (announce_sameTable _ _ _ _)
      hrest
  next =>
    exact process_ledger (Ledger.start hdistinct rfl (by simp [hsummary])) hrest

/-- A run ends as completed only if no phase of it was stopped. -/
theorem yields_of_completed {observer : Observer} {settings : Settings} {request : Request}
    {repo : R} (h : (run observer settings request repo).1.status.phase = .completed) :
    Yields (execute observer settings (settings.engine request) request)
      (startSession settings request repo) () (endSession observer settings request repo) := by
  rcases hend : exec (execute observer settings (settings.engine request) request)
    (startSession settings request repo) with ⟨stop | u, last⟩
  · have hrun : (execute observer settings (settings.engine request) request).run
        (startSession settings request repo) = (.error stop, last) := hend
    unfold startSession at hrun
    rw [run, hrun] at h
    cases h
  · rw [Yields, endSession, final, hend]

/-- In a completed run every discovered file is counted once: as not read, not transformed,
unchanged, committed or not committed, and the successful results are those of the unchanged and the
committed files. A completed dry run writes nothing, and all that it transformed succeeds. -/
theorem counts_conserved (observer : Observer) (settings : Settings) (request : Request) (repo : R)
    (hcompleted : (run observer settings request repo).1.status.phase = .completed) :
    let response := (run observer settings request repo).1
    let summary := response.summary
    let successes := response.results.countP fun r ↦ r.verdict.isSuccess
    (request.dryRun = false →
      summary.discovered = summary.readFailures + summary.transformFailures + summary.unchanged +
          summary.committed + summary.commitFailures ∧
        summary.transformed = summary.unchanged + summary.committed + summary.commitFailures ∧
        successes = summary.committed + summary.unchanged) ∧
      (request.dryRun = true →
        summary.committed = 0 ∧ summary.commitFailures = 0 ∧ summary.batches = 0 ∧
          successes = summary.transformed) := by
  intro response summary successes
  let entries := (endSession observer settings request repo).entries
  obtain ⟨found, hledger⟩ := execute_ledger rfl rfl (yields_of_completed hcompleted)
  have hbalanced : Balanced request.dryRun found.length (entries.countP Entry.succeeded)
    (entries.countP Entry.failed) 0 summary := hledger.balanced
  have hsuccesses : successes = entries.countP Entry.succeeded := by
    change (response.results).countP _ = _
    rw [run_results, List.countP_map]
    refine List.countP_congr fun e _ ↦ ?_
    cases hresult : e.result <;>
      simp [Entry.settled, Entry.succeeded, hresult]
  have htotal : found.length = entries.countP Entry.succeeded + entries.countP Entry.failed :=
    hledger.length_eq
  have hdiscovered := hbalanced.discovered_eq
  have htransformed := hbalanced.transformed_eq
  have hfailed := hbalanced.failed_eq
  refine ⟨fun hdry ↦ ?_, fun hdry ↦ ?_⟩
  · have hkept := hbalanced.kept hdry
    exact ⟨by omega, by omega, by omega⟩
  · obtain ⟨hcommitted, hfailures, hbatches⟩ := hbalanced.unwritten hdry
    exact ⟨hcommitted, hfailures, hbatches, by omega⟩

/-- Of two files one is blank, and so it is not transformed; the other one is committed. -/
theorem counts_conserved_blank_file :
    let repo : Store := .ofBranch "main" [("A.java", "class A"), ("B.java", " ")] true
    let settings : Settings := { newBranch := "migrated", sourceRoots := ["src"] }
    let request : Request := { mode := .manual }
    let response := (run .quiet settings request repo).1
    response.status.phase = .completed ∧ request.dryRun = false ∧
      response.summary.discovered = response.summary.readFailures +
        response.summary.transformFailures + response.summary.unchanged +
        response.summary.committed + response.summary.commitFailures ∧
      response.summary.transformFailures = 1 ∧ response.summary.committed = 1 := by
  intro repo settings request
  dsimp only
  obtain ⟨hcompleted, hcounts⟩ : (run .quiet settings request repo).1.status.phase = .completed ∧
      (run .quiet settings request repo).1.summary.transformFailures = 1 ∧
      (run .quiet settings request repo).1.summary.committed = 1 := by
    decide +kernel
  obtain ⟨hdiscovered, _, _⟩ := (counts_conserved .quiet settings request repo hcompleted).1 rfl
  exact ⟨hcompleted, rfl, hdiscovered, hcounts⟩

end SuiteMigration.Run
