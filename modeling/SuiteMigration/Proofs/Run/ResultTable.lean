import Mathlib.Data.List.Forall2
import Mathlib.Tactic.Tauto
import SuiteMigration.Proofs.Assoc
import SuiteMigration.Proofs.Run.Frame

/-!
The table of results. From discovery on a run has one row for each discovered file, in ascending
order of the paths, and every result stands in the row of its own file; no phase, failure or crash
changes that. So a response has one result for each discovered file.
-/

set_option autoImplicit false
set_option relaxedAutoImplicit false

namespace SuiteMigration.Run

open SuiteMigration.Repository

variable {R : Type}

/-- The table has one row for each of the files, in their order. A result stands in the row of the
file that it is about, and every result in the table satisfies `P`. -/
structure Table (files : List DiscoveredFile) (P : FileResult → Prop) (s : Session R) : Prop where
  files_eq : s.entries.map Entry.file = files
  source_eq : ∀ e ∈ s.entries, ∀ r, e.result = some r → r.source = e.file.path
  holds : ∀ e ∈ s.entries, ∀ r, e.result = some r → P r

variable {files : List DiscoveredFile} {P : FileResult → Prop}

theorem Table.of_entries_eq {s t : Session R} (h : Table files P s)
    (heq : t.entries = s.entries) : Table files P t :=
  ⟨heq ▸ h.files_eq, heq ▸ h.source_eq, heq ▸ h.holds⟩

theorem Table.weaken {Q : FileResult → Prop} {s : Session R} (h : Table files P s)
    (hPQ : ∀ r, P r → Q r) : Table files Q s :=
  ⟨h.files_eq, h.source_eq, fun e he r hr ↦ hPQ r (h.holds e he r hr)⟩

theorem Table.of_nil {s : Session R} (h : s.entries = []) : Table [] P s :=
  ⟨by rw [h]; rfl, by simp [h], by simp [h]⟩

theorem Table.start {s : Session R} (found : List DiscoveredFile)
    (h : s.entries = found.map fun file ↦ { file }) : Table found P s := by
  refine ⟨?_, ?_, ?_⟩
  · rw [h, List.map_map]
    exact List.map_id found
  · intro e he r hr
    rw [h] at he
    obtain ⟨file, _, rfl⟩ := List.mem_map.mp he
    cases hr
  · intro e he r hr
    rw [h] at he
    obtain ⟨file, _, rfl⟩ := List.mem_map.mp he
    cases hr

/-- A step that leaves the table alone keeps what holds of it. -/
theorem Along.table {α : Type} {m : Step R α} (h : Along SameTable m) :
    Along (Carries (Table files P)) m :=
  h.mono fun _ _ hsame htable ↦ htable.of_entries_eq hsame.1

/-- Resolving the file at a path with a result about that path keeps the table. -/
theorem Table.resolve {s : Session R} (h : Table files P s) {result : FileResult}
    (hresult : P result) :
    Table files P
      { s with entries := s.entries.map (Entry.resolve result.source result) } := by
  have hfile (e : Entry) : (Entry.resolve result.source result e).file = e.file := by
    unfold Entry.resolve
    split <;> rfl
  -- a row keeps its result, or gets the new one because its path is the source of that
  have hrow (e : Entry) (he : e ∈ s.entries) (r : FileResult)
      (hr : (Entry.resolve result.source result e).result = some r) :
      r.source = e.file.path ∧ P r := by
    unfold Entry.resolve at hr
    split at hr
    next hpath =>
      obtain rfl : result = r := Option.some.inj hr
      exact ⟨(eq_of_beq hpath).symm, hresult⟩
    next => exact ⟨h.source_eq e he r hr, h.holds e he r hr⟩
  refine ⟨?_, ?_, ?_⟩
  · rw [List.map_map, ← h.files_eq]
    exact List.map_congr_left fun e _ ↦ hfile e
  · intro e he r hr
    obtain ⟨old, hold, rfl⟩ := List.mem_map.mp he
    rw [hfile]
    exact (hrow old hold r hr).1
  · intro e he r hr
    obtain ⟨old, hold, rfl⟩ := List.mem_map.mp he
    exact (hrow old hold r hr).2

theorem resolve_table {path : String} {result : FileResult} (hsource : result.source = path)
    (hresult : P result) :
    Along (Carries (Table files P)) (resolve path result : Step R Unit) := by
  subst hsource
  exact Along.modify fun _ h ↦ h.resolve hresult

theorem count_table (update : Summary → Summary) :
    Along (Carries (Table files P)) (count update : Step R Unit) :=
  Along.modify fun _ h ↦ h.of_entries_eq rfl

/-! ### Reading -/

theorem collectRead_table
    (hread : ∀ path reason, P (.failed path none ("read failed: " ++ reason)))
    (outcomes : List Reading.Outcome) :
    Along (Carries (Table files P))
      (collectRead outcomes : Step R (List (DiscoveredFile × String))) := by
  induction outcomes with
  | nil => exact Along.pure _
  | cons outcome rest ih =>
    unfold collectRead
    split
    · exact ih.bind fun _ ↦ Along.pure _
    · exact (count_table _).bind fun _ ↦ (resolve_table rfl (hread _ _)).bind fun _ ↦ ih

theorem readFiles_table [Repository R]
    (hread : ∀ path reason, P (.failed path none ("read failed: " ++ reason)))
    (observer : Observer) (policy : Reading.Policy) (discovered : List DiscoveredFile) :
    Along (Carries (Table files P))
      (readFiles observer policy discovered : Step R (List (DiscoveredFile × String))) :=
  (announce_sameTable _ _ _ _).table.bind fun _ ↦
    (readPool_sameTable _ _ _).table.bind fun outcomes ↦
      (enter_sameTable _ _).table.bind fun _ ↦ collectRead_table hread outcomes

/-! ### Transforming -/

theorem TransformedFile.source_of_result? {t : TransformedFile} {r : FileResult}
    (h : TransformedFile.result? t = some r) : r.source = t.sourcePath := by
  unfold TransformedFile.result? at h
  split at h
  · exact Option.some.inj h ▸ rfl
  · split at h
    · exact Option.some.inj h ▸ rfl
    · cases h

theorem record_table {t : TransformedFile}
    (ht : ∀ r, TransformedFile.result? t = some r → P r) :
    Along (Carries (Table files P)) (record t : Step R (Option Commit.Item)) := by
  refine (count_table _).bind fun _ ↦ ?_
  split
  next r hr =>
    exact (resolve_table (TransformedFile.source_of_result? hr) (ht r hr)).bind fun _ ↦
      Along.pure _
  next => exact Along.pure _

theorem skeletonItems_table (observer : Observer) (engine : Engine) (request : Request)
    (items : List Commit.Item) :
    Along (Carries (Table files P))
      (skeletonItems observer engine request items : Step R (List Commit.Item)) := by
  unfold skeletonItems
  split
  · exact Along.pure _
  · refine (announce_sameTable _ _ _ _).table.bind fun _ ↦ ?_
    split
    · exact Along.throw _
    · exact (count_table _).bind fun _ ↦ Along.pure _

variable [Repository R]

theorem transformFrom_table {observer : Observer} {engine : Engine} {request : Request}
    {branch : String} {sources : SourceIndex}
    (ht : ∀ file content s t next,
      Yields (transformFile engine request branch sources file content : Step R _) s t next →
        ∀ r, TransformedFile.result? t = some r → P r)
    (total done : Nat) (loaded : List (DiscoveredFile × String)) :
    Along (Carries (Table files P))
      (transformFrom observer engine request branch sources total done loaded :
        Step R (List Commit.Item)) := by
  induction loaded generalizing done with
  | nil => exact Along.pure _
  | cons head rest ih =>
    obtain ⟨file, content⟩ := head
    intro s h
    refine final_bind_cases (fun _ ↦ ?_) fun t next hyields ↦ ?_
    · exact (transformFile_sameTable _ _ _ _ _ _).table s h
    · have hnext := (transformFile_sameTable _ _ _ _ _ _).table.yields hyields h
      exact ((record_table (ht file content s t next hyields)).bind fun _ ↦
        (notify_sameTable _ _).table.bind fun _ ↦ (ih _).bind fun _ ↦ Along.pure _) next hnext

theorem transformAll_table {observer : Observer} {engine : Engine} {request : Request}
    {branch : String}
    (ht : ∀ sources file content s t next,
      Yields (transformFile engine request branch sources file content : Step R _) s t next →
        ∀ r, TransformedFile.result? t = some r → P r)
    (loaded : List (DiscoveredFile × String)) :
    Along (Carries (Table files P))
      (transformAll observer engine request branch loaded : Step R (List Commit.Item)) := by
  unfold transformAll
  refine (announce_sameTable _ _ _ _).table.bind fun _ ↦ ?_
  have hrest (sources : SourceIndex) :
      Along (Carries (Table files P)) (do
        let items ← transformFrom observer engine request branch sources loaded.length 0 loaded
        enter .transforming 70
        return items : Step R (List Commit.Item)) :=
    (transformFrom_table (ht sources) _ _ _).bind fun _ ↦
      (enter_sameTable _ _).table.bind fun _ ↦ Along.pure _
  split
  · exact (sourceIndex_sameTable _ _).table.bind hrest
  · exact (Along.pure _).bind hrest

/-! ### Settling -/

omit [Repository R] in
theorem settleDry_table {items : List Commit.Item}
    (hP : ∀ item ∈ items, ∀ source, item.source = some source →
      P (.success source item.path (some dryRunNote))) :
    Along (Carries (Table files P)) (settleDry items : Step R Unit) := by
  induction items with
  | nil => exact Along.pure _
  | cons item rest ih =>
    have hrest := ih fun other hother ↦ hP other (List.mem_cons_of_mem _ hother)
    rw [settleDry]
    split
    next source hsource =>
      exact (resolve_table rfl (hP item List.mem_cons_self source hsource)).bind fun _ ↦ hrest
    next => exact hrest

omit [Repository R] in
theorem settleItem_table {result : Except Error (List String)} {item : Commit.Item}
    (hok : ∀ ids source, result = .ok ids → item.source = some source →
      P (.success source item.path none))
    (herror : ∀ e source, result = .error e → item.source = some source →
      P (.failed source (some item.path) ("commit failed: " ++ e.message))) :
    Along (Carries (Table files P)) (settleItem result item : Step R Unit) := by
  unfold settleItem
  split
  next source hsource =>
    split
    next ids hids =>
      exact (count_table _).bind fun _ ↦ resolve_table rfl (hok _ source rfl hsource)
    next e he => exact (count_table _).bind fun _ ↦ resolve_table rfl (herror _ source rfl hsource)
  next => exact Along.pure _

omit [Repository R] in
theorem settleOutcomes_table {outcomes : List Commit.Outcome}
    (hok : ∀ outcome ∈ outcomes, ∀ item ∈ outcome.items, ∀ ids source,
      outcome.result = .ok ids → item.source = some source → P (.success source item.path none))
    (herror : ∀ outcome ∈ outcomes, ∀ item ∈ outcome.items, ∀ e source,
      outcome.result = .error e → item.source = some source →
        P (.failed source (some item.path) ("commit failed: " ++ e.message))) :
    Along (Carries (Table files P)) (settleOutcomes outcomes : Step R Unit) := by
  induction outcomes with
  | nil => exact Along.pure _
  | cons outcome rest ih =>
    have hrest := ih (fun other hother ↦ hok other (List.mem_cons_of_mem _ hother))
      (fun other hother ↦ herror other (List.mem_cons_of_mem _ hother))
    have hfirst (items : List Commit.Item) (hsub : ∀ item ∈ items, item ∈ outcome.items) :
        Along (Carries (Table files P)) (settleItems outcome.result items : Step R Unit) := by
      induction items with
      | nil => exact Along.pure _
      | cons item others ih =>
        have hitem := hsub item List.mem_cons_self
        exact (settleItem_table (hok outcome List.mem_cons_self item hitem)
          (herror outcome List.mem_cons_self item hitem)).bind fun _ ↦
            ih fun other hother ↦ hsub other (List.mem_cons_of_mem _ hother)
    exact (hfirst outcome.items fun _ h ↦ h).bind fun _ ↦ hrest

/-! ### A whole run -/

/-- Whatever happens after discovery, the table keeps one row for each discovered file. -/
theorem process_table (observer : Observer) (settings : Settings) (engine : Engine)
    (request : Request) (branches : List String) (discovered : List DiscoveredFile) :
    Along (Carries (Table files fun _ ↦ True))
      (process observer settings engine request branches discovered : Step R Unit) := by
  refine (prepareBranch_sameTable _ _ _).table.bind fun branch ↦
    (readFiles_table (fun _ _ ↦ trivial) _ _ _).bind fun loaded ↦
      (transformAll_table (fun _ _ _ _ _ _ _ _ _ ↦ trivial) _).bind fun items ↦
        (skeletonItems_table _ _ _ _).bind fun skeleton ↦ Along.bind ?_ fun _ ↦
          (requestPull_sameTable _ _ _).table.bind fun _ ↦ (announce_sameTable _ _ _ _).table
  refine (announce_sameTable _ _ _ _).table.bind fun _ ↦ ?_
  have henter : Along (Carries (Table files fun _ ↦ True)) (enter .committing 95 : Step R Unit) :=
    (enter_sameTable _ _).table
  split
  · exact (settleDry_table fun _ _ _ _ ↦ trivial).bind fun _ ↦ henter
  · split
    · exact (count_table _).bind fun _ ↦ (writeBatches_sameTable _ _ _ _).table.bind fun _ ↦
        (settleOutcomes_table (fun _ _ _ _ _ _ _ _ ↦ trivial)
          (fun _ _ _ _ _ _ _ _ ↦ trivial)).bind fun _ ↦ henter
    · exact henter

/-- What discovery gave in a run; none if the run ended before it, because the branch to be read is
not there or the observer crashed. -/
def discovery? (observer : Observer) (request : Request) (repo : R) :
    Option (Except Error (List DiscoveredFile)) :=
  match Repository.listBranches repo with
  | (.error _, _) => none
  | (.ok branches, next) =>
      if branches.contains request.readBranch ∧
          observer 0 ⟨"Validating repository access", .validating, 5⟩ = none ∧
          observer 1 ⟨"Discovering files", .analyzing, 15⟩ = none then
        some (discover request next).1
      else none

/-- The files that discovery returned; none if it did not succeed. -/
def discoveredFiles (observer : Observer) (request : Request) (repo : R) : List DiscoveredFile :=
  match discovery? observer request repo with
  | some (.ok files) => files
  | _ => []

theorem addFound_ascending (request : Request) (search : Search) {found : Assoc Role}
    (h : Assoc.Ascending found) (handles : List FileHandle) :
    Assoc.Ascending (request.addFound search found handles) := by
  induction handles generalizing found with
  | nil => exact h
  | cons handle rest ih =>
    rw [Request.addFound, List.foldl_cons]
    split
    · exact ih (h.insertNew _ _)
    · exact ih h

theorem searchAll_ascending (request : Request) (searches : List Search) {found last : Assoc Role}
    (repo : R) (h : Assoc.Ascending found)
    (hlast : (searchAll request found searches repo).1 = .ok last) :
    Assoc.Ascending last := by
  induction searches generalizing found repo with
  | nil =>
    obtain rfl : found = last := Except.ok.inj hlast
    exact h
  | cons search rest ih =>
    rw [searchAll] at hlast
    split at hlast
    · exact ih _ (addFound_ascending request search h _) hlast
    · cases hlast

/-- Discovered files are the paths that the searches found, on the branch that is read. -/
theorem exists_found_of_discover {request : Request} {repo : R} {found : List DiscoveredFile}
    (h : (discover request repo).1 = .ok found) :
    ∃ pairs : Assoc Role, (searchAll request [] request.searches repo).1 = .ok pairs ∧
      found = pairs.map fun pair ↦ ⟨pair.1, pair.2, request.readBranch⟩ := by
  unfold discover at h
  rcases hsearch : searchAll request [] request.searches repo with ⟨_ | pairs, next⟩
  · simp only [hsearch, Except.map] at h
    cases h
  · simp only [hsearch, Except.map, Except.ok.injEq] at h
    exact ⟨pairs, rfl, h.symm⟩

/-- Discovery gives files in ascending order of their paths, and so every path once. -/
theorem discover_ascending (request : Request) (repo : R) {found : List DiscoveredFile}
    (h : (discover request repo).1 = .ok found) :
    (found.map DiscoveredFile.path).Pairwise (· < ·) := by
  obtain ⟨pairs, hsearch, rfl⟩ := exists_found_of_discover h
  rw [List.map_map]
  exact searchAll_ascending request request.searches repo Assoc.Ascending.nil hsearch

theorem discoveredFiles_ascending (observer : Observer) (request : Request) (repo : R) :
    ((discoveredFiles observer request repo).map DiscoveredFile.path).Pairwise (· < ·) := by
  unfold discoveredFiles
  split
  next found hfound =>
    unfold discovery? at hfound
    split at hfound
    · cases hfound
    · split at hfound
      · exact discover_ascending request _ (Option.some.inj hfound)
      · cases hfound
  next => exact List.Pairwise.nil

theorem validateAccess_yields (observer : Observer) (request : Request) {s next : Session R}
    {branches : List String} (hevents : s.events = []) :
    Yields (validateAccess observer request) s branches next ↔
      observer 0 ⟨"Validating repository access", .validating, 5⟩ = none ∧
        (Repository.listBranches s.repo).1 = .ok branches ∧
        branches.contains request.readBranch ∧
        { s with
          repo := (Repository.listBranches s.repo).2
          status := s.status.enter .validating 5
          events := [⟨"Validating repository access", .validating, 5⟩] } = next := by
  unfold validateAccess
  simp only [yields_bind, yields_announce, yields_accessOr, hevents]
  constructor
  · rintro ⟨_, _, ⟨hobserver, rfl⟩, found, _, ⟨hfound, rfl⟩, hlast⟩
    split at hlast
    next hcontains =>
      obtain ⟨rfl, rfl⟩ := yields_pure.mp hlast
      exact ⟨hobserver, hfound, hcontains, rfl⟩
    next => exact absurd hlast yields_throw
  · rintro ⟨hobserver, hfound, hcontains, rfl⟩
    refine ⟨(), _, ⟨hobserver, rfl⟩, branches, _, ⟨hfound, rfl⟩, ?_⟩
    rw [if_pos hcontains]
    exact yields_pure.mpr ⟨rfl, rfl⟩

theorem discoverFiles_yields (observer : Observer) (request : Request) {s next : Session R}
    {found : List DiscoveredFile} :
    Yields (discoverFiles observer request) s found next ↔
      observer s.events.length ⟨"Discovering files", .analyzing, 15⟩ = none ∧
        (discover request s.repo).1 = .ok found ∧
        { s with
          repo := (discover request s.repo).2
          status := s.status.enter .analyzing 15
          events := s.events ++ [⟨"Discovering files", .analyzing, 15⟩]
          entries := found.map fun file ↦ { file }
          summary := { s.summary with discovered := found.length } } = next := by
  unfold discoverFiles
  simp only [yields_bind, yields_announce, yields_accessOr, yields_count, yields_modify,
    yields_pure]
  constructor
  · rintro ⟨_, _, ⟨hobserver, rfl⟩, _, _, ⟨hfound, rfl⟩, _, _, rfl, _, _, rfl, rfl, rfl⟩
    exact ⟨hobserver, hfound, rfl⟩
  · rintro ⟨hobserver, hfound, rfl⟩
    exact ⟨(), _, ⟨hobserver, rfl⟩, found, _, ⟨hfound, rfl⟩, (), _, rfl, (), _, rfl, rfl, rfl⟩

/-- Discovery that gives no files leaves the table as it was. -/
theorem discoverFiles_stopped {observer : Observer} {request : Request} {s : Session R}
    (h : ∀ found next, ¬ Yields (discoverFiles observer request) s found next) :
    (final (discoverFiles observer request) s).entries = s.entries := by
  cases hobserver : observer s.events.length ⟨"Discovering files", .analyzing, 15⟩ with
  | some message => simp [final, discoverFiles, exec_bind, hobserver]
  | none =>
    cases hfound : (discover request s.repo).1 with
    | error e => simp [final, discoverFiles, exec_bind, hobserver, hfound]
    | ok found =>
      exact absurd ((discoverFiles_yields observer request).mpr ⟨hobserver, hfound, rfl⟩) (h _ _)

theorem discoveredFiles_eq_nil {observer : Observer} {request : Request} {repo : R}
    (h : ∀ found, discovery? observer request repo ≠ some (.ok found)) :
    discoveredFiles observer request repo = [] := by
  unfold discoveredFiles
  split
  next found hfound => exact absurd hfound (h found)
  next => rfl

theorem discoveredFiles_eq {observer : Observer} {request : Request} {repo : R}
    {found : List DiscoveredFile} (h : discovery? observer request repo = some (.ok found)) :
    discoveredFiles observer request repo = found := by
  rw [discoveredFiles, h]

theorem discovery?_eq_of_cons {observer : Observer} {request : Request} {repo : R}
    {file : DiscoveredFile} {found : List DiscoveredFile}
    (h : discoveredFiles observer request repo = file :: found) :
    discovery? observer request repo = some (.ok (file :: found)) := by
  unfold discoveredFiles at h
  split at h
  next _ hdiscovery => rw [hdiscovery, h]
  next => cases h

theorem discovery?_eq_ok_iff {observer : Observer} {request : Request} {repo : R}
    {found : List DiscoveredFile} :
    discovery? observer request repo = some (.ok found) ↔
      observer 0 ⟨"Validating repository access", .validating, 5⟩ = none ∧
        observer 1 ⟨"Discovering files", .analyzing, 15⟩ = none ∧
        ∃ branches, (Repository.listBranches repo).1 = .ok branches ∧
          branches.contains request.readBranch ∧
          (discover request (Repository.listBranches repo).2).1 = .ok found := by
  unfold discovery?
  rcases Repository.listBranches repo with ⟨_ | branches, next⟩
  · simp
  · simp only [Option.ite_none_right_eq_some, Option.some.injEq, Except.ok.injEq, exists_eq_left']
    tauto

/-- From its start to its end, in whatever way that comes, a run has the table of the files that
discovery returned. -/
theorem execute_table (observer : Observer) (settings : Settings) (engine : Engine)
    (request : Request) (s : Session R) (hentries : s.entries = []) (hevents : s.events = []) :
    Table (discoveredFiles observer request s.repo) (fun _ ↦ True)
      (final (execute observer settings engine request) s) := by
  refine final_bind_cases (fun hstop ↦ ?_) fun branches accessed haccessed ↦ ?_
  · -- without access there is no discovery
    rw [discoveredFiles_eq_nil]
    · exact Table.of_nil ((validateAccess_sameTable observer request s).1.trans hentries)
    · intro found hfound
      obtain ⟨hobserver, _, branches, hbranches, hcontains, _⟩ := discovery?_eq_ok_iff.mp hfound
      exact hstop _ _ ((validateAccess_yields observer request hevents).mpr
        ⟨hobserver, hbranches, hcontains, rfl⟩)
  · obtain ⟨hobserver, hbranches, hcontains, rfl⟩ :=
      (validateAccess_yields observer request hevents).mp haccessed
    refine final_bind_cases (fun hstop ↦ ?_) fun found next hnext ↦ ?_
    · rw [discoveredFiles_eq_nil]
      · exact Table.of_nil ((discoverFiles_stopped hstop).trans hentries)
      · intro found hfound
        obtain ⟨_, hcall, _, _, _, hdiscover⟩ := discovery?_eq_ok_iff.mp hfound
        exact hstop _ _ ((discoverFiles_yields observer request).mpr ⟨hcall, hdiscover, rfl⟩)
    · obtain ⟨hcall, hdiscover, rfl⟩ := (discoverFiles_yields observer request).mp hnext
      rw [discoveredFiles_eq (discovery?_eq_ok_iff.mpr
        ⟨hobserver, hcall, branches, hbranches, hcontains, hdiscover⟩)]
      dsimp only
      split
      · exact (announce_sameTable observer _ _ _).table _ (Table.start found rfl)
      · exact process_table observer settings engine request branches found _
          (Table.start found rfl)

/-- The session in which a run starts. -/
def startSession (settings : Settings) (request : Request) (repo : R) : Session R :=
  { repo, assistant := settings.assistantFor request }

/-- The session in which the phases of a run end. -/
def endSession (observer : Observer) (settings : Settings) (request : Request) (repo : R) :
    Session R :=
  final (execute observer settings (settings.engine request) request)
    (startSession settings request repo)

theorem run_results (observer : Observer) (settings : Settings) (request : Request) (repo : R) :
    (run observer settings request repo).1.results =
      (endSession observer settings request repo).entries.map
        (Entry.settled (unsettledReason (run observer settings request repo).1.failure)) :=
  rfl

theorem run_branch (observer : Observer) (settings : Settings) (request : Request) (repo : R) :
    (run observer settings request repo).1.status.branch =
      (endSession observer settings request repo).status.branch := by
  change ((endSession observer settings request repo).close
    (run observer settings request repo).1.failure).status.branch = _
  unfold Session.close
  dsimp only
  split <;> rfl

theorem endSession_table (observer : Observer) (settings : Settings) (request : Request)
    (repo : R) :
    Table (discoveredFiles observer request repo) (fun _ ↦ True)
      (endSession observer settings request repo) :=
  execute_table observer settings (settings.engine request) request
    (startSession settings request repo) rfl rfl

theorem unsettledReason_eq (failure : Option Failure) :
    ∃ rest, unsettledReason failure = "not processed" ++ rest := by
  cases failure with
  | none => exact ⟨"", rfl⟩
  | some f =>
    have hsplit : "not processed: " = "not processed" ++ ": " := rfl
    refine ⟨": " ++ f.message, ?_⟩
    change "not processed: " ++ f.message = _
    rw [hsplit, String.append_assoc]

/-- A result is what a phase has settled for its file, or the failure of a file that none has. -/
theorem settled_cases (failure : Option Failure) (e : Entry) :
    e.result = some (e.settled (unsettledReason failure)) ∨
      e.result = none ∧ ∃ rest, e.settled (unsettledReason failure) =
        .failed e.file.path none ("not processed" ++ rest) := by
  obtain ⟨rest, hrest⟩ := unsettledReason_eq failure
  rw [Entry.settled, hrest]
  cases e.result with
  | some r => exact Or.inl rfl
  | none => exact Or.inr ⟨rfl, rest, rfl⟩

/-- A response has one result for each file that discovery returned, in ascending order of the
paths; a file that no phase has settled failed because it was not processed. Without discovered
files there are no results. -/
theorem results_follow_discovery (observer : Observer) (settings : Settings) (request : Request)
    (repo : R) :
    let response := (run observer settings request repo).1
    let session := (run observer settings request repo).2
    let files := discoveredFiles observer request repo
    response.results.map FileResult.source = files.map DiscoveredFile.path ∧
      (files.map DiscoveredFile.path).Pairwise (· < ·) ∧
      session.entries.map Entry.file = files ∧
      List.Forall₂ (fun entry result ↦ entry.result = some result ∨
        entry.result = none ∧
          ∃ rest, result = .failed entry.file.path none ("not processed" ++ rest))
        session.entries response.results ∧
      ((¬ ∃ file found, discovery? observer request repo = some (.ok (file :: found))) →
        response.results = []) := by
  intro response session files
  have htable := endSession_table observer settings request repo
  have hresults : response.results = _ := run_results observer settings request repo
  have hsources : response.results.map FileResult.source = files.map DiscoveredFile.path := by
    change _ = (discoveredFiles observer request repo).map DiscoveredFile.path
    rw [hresults, List.map_map, ← htable.files_eq, List.map_map]
    refine List.map_congr_left fun e he ↦ ?_
    rcases settled_cases response.failure e with hsome | ⟨_, rest, hnone⟩
    · exact htable.source_eq e he _ hsome
    · exact congrArg FileResult.source hnone
  refine ⟨hsources, discoveredFiles_ascending observer request repo, htable.files_eq, ?_, ?_⟩
  · change List.Forall₂ _ (endSession observer settings request repo).entries _
    rw [hresults, List.forall₂_map_right_iff, List.forall₂_same]
    exact fun e _ ↦ settled_cases response.failure e
  · intro hempty
    have hfiles : files = [] := by
      cases hfound : files with
      | nil => rfl
      | cons file found => exact absurd ⟨file, found, discovery?_eq_of_cons hfound⟩ hempty
    rw [hfiles] at hsources
    exact List.map_eq_nil_iff.mp hsources

end SuiteMigration.Run
