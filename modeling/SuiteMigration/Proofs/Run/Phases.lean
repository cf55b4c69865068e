import SuiteMigration.Proofs.Commit.Batching
import SuiteMigration.Proofs.Engine
import SuiteMigration.Proofs.Reading.Completion
import SuiteMigration.Proofs.Run.Step
import SuiteMigration.Run.Execution

/-!
What phases give when nothing stops them. Reading gives an outcome for every file, transforming a
file keeps its source path, and writing gives an outcome for every batch: an observer that let all
reports pass has not cut any of them short.
-/

set_option autoImplicit false
set_option relaxedAutoImplicit false

namespace SuiteMigration.Run

open SuiteMigration.Repository

variable {R : Type}

theorem yields_migrateFile {engine : Engine} {file : DiscoveredFile} {content : String}
    {s next : Session R} {t : TransformedFile} :
    Yields (migrateFile engine file content) s t next ↔
      (engine.migrate s.assistant file content).1 = t ∧
        { s with
          assistant := (engine.migrate s.assistant file content).2.1
          now := s.now + (engine.migrate s.assistant file content).2.2 } = next := by
  simp only [migrateFile, yields_bind, yields_get, yields_set, yields_pure]
  constructor
  · rintro ⟨_, _, ⟨rfl, rfl⟩, _, _, rfl, rfl, rfl⟩
    exact ⟨rfl, rfl⟩
  · rintro ⟨rfl, rfl⟩
    exact ⟨_, _, ⟨rfl, rfl⟩, ⟨⟩, _, rfl, rfl, rfl⟩

variable [Repository R]

theorem mergeExisting_sourcePath {engine : Engine} {request : Request} {branch : String}
    {fresh t : TransformedFile} {s next : Session R}
    (h : Yields (mergeExisting engine request branch fresh) s t next) :
    t.sourcePath = fresh.sourcePath := by
  obtain ⟨result, _, _, h⟩ := yields_bind.mp h
  cases result with
  | error e =>
    rw [(yields_pure.mp h).1]
  | ok existing =>
    dsimp only at h
    split at h
    · rw [(yields_pure.mp h).1]
    · rw [← (yields_pure.mp h).1]

/-- Whatever is made of a file, it is made of that file. -/
theorem transformFile_sourcePath {engine : Engine} {request : Request} {branch : String}
    {sources : SourceIndex} {file : DiscoveredFile} {content : String} {s next : Session R}
    {t : TransformedFile}
    (h : Yields (transformFile engine request branch sources file content) s t next) :
    t.sourcePath = file.path := by
  unfold transformFile at h
  split at h
  · dsimp only at h
    split at h
    all_goals
      obtain ⟨regenerated, _, _, h⟩ := yields_bind.mp h
      rw [← (yields_pure.mp h).1]
      rfl
  · rw [← (yields_migrateFile.mp h).1]
    exact (engine.migrate_about _ _ _).1
  · obtain ⟨fresh, middle, hfresh, h⟩ := yields_bind.mp h
    have hpath : fresh.sourcePath = file.path := by
      rw [← (yields_migrateFile.mp hfresh).1]
      exact (engine.migrate_about _ _ _).1
    split at h
    · exact (mergeExisting_sourcePath h).trans hpath
    · exact (yields_pure.mp h).1 ▸ hpath

/-- Whether reading is to stop after a number of outcomes, in a run that has made some reports. -/
def stopsReading (observer : Observer) (reports total done : Nat) : Bool :=
  (observer (reports + done - 1) (readEvent total done)).isSome

/-- The outcome that stops the reading is reported, and the observer crashes at that report. -/
theorem workers_of_passed {observer : Observer} {policy : Reading.Policy}
    {files : List DiscoveredFile} {repo : R} {now reports : Nat} :
    let pool := Reading.readAll policy (stopsReading observer reports files.length) files repo now
    (∀ i < pool.finished.length,
      observer (reports + i) (readEvent files.length (i + 1)) = none) → pool.workers = [] := by
  intro pool hpassed
  obtain ⟨_, hdone | ⟨hpos, hstop⟩⟩ := Reading.readAll_accounts policy
    (stopsReading observer reports files.length) files repo now
  · exact hdone
  · have hlast := hpassed (pool.finished.length - 1) (Nat.sub_lt hpos Nat.one_pos)
    rw [Nat.sub_add_cancel hpos, ← Nat.add_sub_assoc hpos] at hlast
    rw [stopsReading, hlast] at hstop
    cases hstop

/-- Reading gives its outcomes if the observer lets the report of each outcome pass. -/
theorem yields_readPool {observer : Observer} {policy : Reading.Policy}
    {files : List DiscoveredFile} {s next : Session R} {outcomes : List Reading.Outcome} :
    Yields (readPool observer policy files) s outcomes next ↔
      let stops := stopsReading observer s.events.length files.length
      let pool := Reading.readAll policy stops files s.repo s.now
      (∀ i < pool.finished.length,
        observer (s.events.length + i) (readEvent files.length (i + 1)) = none) ∧
      pool.outcomes files.length = outcomes ∧
        { s with
          repo := pool.repo
          now := pool.now
          calls := s.calls ++ pool.calls
          events := s.events ++
            (List.range pool.finished.length).map fun i ↦ readEvent files.length (i + 1) } =
          next := by
  simp only [readPool, yields_bind, yields_get, yields_set, yields_pure, yields_forM_notify]
  have hrange (n : Nat) : (∀ i a, (List.range n)[i]? = some a →
        observer (s.events.length + i) (readEvent files.length (a + 1)) = none) ↔
      ∀ i < n, observer (s.events.length + i) (readEvent files.length (i + 1)) = none := by
    constructor
    · exact fun h i hi ↦ h i i (List.getElem?_range hi)
    · intro h i a hi
      obtain ⟨hlt, rfl⟩ := List.getElem?_eq_some_iff.mp hi
      rw [List.length_range] at hlt
      rw [List.getElem_range]
      exact h i hlt
  constructor
  · rintro ⟨_, _, ⟨rfl, rfl⟩, _, _, rfl, _, _, ⟨hpassed, rfl⟩, houtcomes, rfl⟩
    exact ⟨(hrange _).mp hpassed, houtcomes, rfl⟩
  · rintro ⟨hpassed, houtcomes, rfl⟩
    exact ⟨s, s, ⟨rfl, rfl⟩, ⟨⟩, _, rfl, ⟨⟩, _, ⟨(hrange _).mpr hpassed, rfl⟩, houtcomes, rfl⟩

/-- Reading that the observer does not stop is a reading of all files. -/
theorem readPool_yields {observer : Observer} {policy : Reading.Policy}
    {files : List DiscoveredFile} {s next : Session R} {outcomes : List Reading.Outcome}
    (h : Yields (readPool observer policy files) s outcomes next) :
    ∃ stops : Nat → Bool, let pool := Reading.readAll policy stops files s.repo s.now
      pool.workers = [] ∧ pool.outcomes files.length = outcomes ∧
        { s with
          repo := pool.repo
          now := pool.now
          calls := s.calls ++ pool.calls
          events := s.events ++
            (List.range pool.finished.length).map fun i ↦ readEvent files.length (i + 1) } =
          next := by
  obtain ⟨hpassed, houtcomes, hnext⟩ := yields_readPool.mp h
  exact ⟨_, workers_of_passed hpassed, houtcomes, hnext⟩

/-- Writing that the observer does not stop writes all batches. -/
theorem writeBatches_yields {observer : Observer} {policy : Commit.Policy} {branch : String}
    {batches : List (List Commit.Item)} {s next : Session R} {outcomes : List Commit.Outcome}
    (h : Yields (writeBatches observer policy branch batches) s outcomes next) :
    ∃ stops : Nat → Bool,
      let written := Commit.commitBatches policy stops branch batches s.repo s.now
      (∀ outcome ∈ outcomes, stops outcome.index = false) ∧ written.1 = outcomes ∧
        { s with
          repo := written.2.1
          now := written.2.2
          events := s.events ++
            outcomes.map fun outcome ↦ batchEvent batches.length outcome.index } = next := by
  simp only [writeBatches, yields_bind, yields_get, yields_set, yields_pure,
    yields_forM_notify] at h
  obtain ⟨_, _, ⟨rfl, rfl⟩, _, _, rfl, _, _, ⟨hquiet, rfl⟩, rfl, rfl⟩ := h
  refine ⟨_, fun outcome houtcome ↦ ?_, rfl, rfl⟩
  obtain ⟨i, hi⟩ := List.mem_iff_getElem?.mp houtcome
  have hindex := Commit.commitFrom_index _ _ _ _ _ _ _ _ i outcome hi
  have hpassed := hquiet i outcome hi
  rw [hindex, Nat.zero_add] at *
  rw [hpassed]
  rfl

/-- The batches with an outcome are all batches. -/
theorem writeBatches_items {observer : Observer} {policy : Commit.Policy} {branch : String}
    {batches : List (List Commit.Item)} {s next : Session R} {outcomes : List Commit.Outcome}
    (h : Yields (writeBatches observer policy branch batches) s outcomes next) :
    outcomes.map Commit.Outcome.items = batches := by
  obtain ⟨stops, hgo, rfl, _⟩ := writeBatches_yields h
  exact Commit.commitFrom_items _ _ _ _ _ _ _ _ hgo

end SuiteMigration.Run
