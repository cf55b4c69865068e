import SuiteMigration.Proofs.Reading.Schedule
import SuiteMigration.Proofs.Repository.Faults

/-!
What a pool of workers reads does not depend on the schedule. The outcome of a file is determined by
its own queue of faults, its content and the number of pauses: throttled reads at the head of the
queue are tried again while there are pauses, and the last attempt gives the result. The number of
workers, the interval, the readings of the clock, the order of the workers and the faults of other
files have no part in it.
-/

set_option autoImplicit false
set_option relaxedAutoImplicit false

namespace SuiteMigration.Reading

open SuiteMigration.Repository

/-! ### The outcome of one file -/

/-- The number of throttled reads at the head of a queue of faults. -/
def throttledReads (queue : List (Option Error)) : Nat :=
  (queue.takeWhile fun fault ↦ fault.any Error.isThrottling).length

/-- The outcome of a file whose reads meet a queue of faults in front of a content: throttled reads
are tried again as often as there are pauses, and the last attempt gives the result. -/
def scriptedOutcome (pauses : Nat) (queue : List (Option Error)) (content : Except Error String)
    (file : DiscoveredFile) : Outcome where
  file := file
  result := scriptedAnswer queue[min (throttledReads queue) pauses]?.join content
  attempts := min (throttledReads queue) pauses + 1

/-- The outcome that a repository in memory with faults in front holds for a file. -/
def outcomeOf (policy : Policy) (repo : Faulty Store) (file : DiscoveredFile) : Outcome :=
  scriptedOutcome policy.backoff.length (repo.queue file.path)
    (repo.inner.readFile file.path (some file.branch)) file

theorem lt_throttledReads {queue : List (Option Error)} {n : Nat} {e : Error}
    (hle : n ≤ throttledReads queue) (hn : queue[n]?.join = some e)
    (hthrottling : e.isThrottling = true) : n < throttledReads queue := by
  induction queue generalizing n with
  | nil => cases hn
  | cons fault rest ih =>
    cases n with
    | zero =>
      have hfault : fault = some e := hn
      simp [throttledReads, hfault, hthrottling]
    | succ n =>
      by_cases hfirst : fault.any Error.isThrottling = true
      · have hcons : throttledReads (fault :: rest) = throttledReads rest + 1 := by
          simp [throttledReads, hfirst]
        rw [hcons] at hle ⊢
        exact Nat.succ_lt_succ (ih (Nat.le_of_succ_le_succ hle) hn)
      · simp [throttledReads, hfirst] at hle

theorem throttledReads_eq {queue : List (Option Error)} {n : Nat} (hle : n ≤ throttledReads queue)
    (hn : ∀ e, queue[n]?.join = some e → e.isThrottling = false) : throttledReads queue = n := by
  induction queue generalizing n with
  | nil => exact (Nat.le_zero.mp hle).symm
  | cons fault rest ih =>
    by_cases hfirst : fault.any Error.isThrottling = true
    · have hcons : throttledReads (fault :: rest) = throttledReads rest + 1 := by
        simp [throttledReads, hfirst]
      cases n with
      | zero =>
        obtain ⟨e, rfl, he⟩ := (Option.any_eq_true _ _).mp hfirst
        rw [hn e rfl] at he
        cases he
      | succ n =>
        rw [hcons] at hle ⊢
        rw [ih (Nat.le_of_succ_le_succ hle) hn]
    · have hzero : throttledReads (fault :: rest) = 0 := by simp [throttledReads, hfirst]
      omega

/-! ### What steps keep -/

/-- Every worker has met the faults of its file up to its last attempt, all of them throttling, and
every outcome is the one that its file has from the start. -/
structure Pool.Scripted (policy : Policy) (repo : Faulty Store) (p : Pool (Faulty Store)) :
    Prop where
  inner_eq : p.repo.inner = repo.inner
  queue_eq : ∀ w ∈ p.workers,
    p.repo.queue w.file.path = (repo.queue w.file.path).drop w.attempts
  throttled : ∀ w ∈ p.workers, w.attempts ≤ throttledReads (repo.queue w.file.path)
  outcome_eq : ∀ f ∈ p.finished, f.2 = outcomeOf policy repo f.2.file

variable {policy : Policy} {files : List DiscoveredFile} {repo : Faulty Store}
  {p q : Pool (Faulty Store)} {w : Worker}

/-- Workers may change places, and what else they are may change if their files and attempts do
not. -/
theorem Pool.Scripted.of_workers (h : p.Scripted policy repo)
    (hworkers : ∀ v ∈ q.workers, ∃ w ∈ p.workers, v.file = w.file ∧ v.attempts = w.attempts)
    (hrepo : q.repo = p.repo) (hfinished : q.finished = p.finished) :
    q.Scripted policy repo := by
  refine ⟨by rw [hrepo]; exact h.inner_eq, ?_, ?_, by rw [hfinished]; exact h.outcome_eq⟩
  · intro v hv
    obtain ⟨w, hw, hfile, hattempts⟩ := hworkers v hv
    rw [hrepo, hfile, hattempts]
    exact h.queue_eq w hw
  · intro v hv
    obtain ⟨w, hw, hfile, hattempts⟩ := hworkers v hv
    rw [hfile, hattempts]
    exact h.throttled w hw

/-- The other workers are on files with other paths. -/
theorem Pool.Accounts.path_ne (h : (p.holding w).Accounts policy files)
    (hpaths : (files.map DiscoveredFile.path).Nodup) {v : Worker} (hv : v ∈ p.workers) :
    v.file.path ≠ w.file.path := by
  have hfirst : files[v.index]? = some v.file := h.worker_file v (by simp [hv])
  have hsecond : files[w.index]? = some w.file := h.worker_file w (by simp)
  have hindex : v.index ≠ w.index := by
    have hnodup := (List.nodup_append.mp (h.positions.nodup_iff.mpr List.nodup_range)).1
    rw [Pool.workers_holding, List.map_cons, List.nodup_cons] at hnodup
    intro heq
    exact hnodup.1 (heq ▸ List.mem_map_of_mem hv)
  intro heq
  apply hindex
  have hlength : v.index < (files.map DiscoveredFile.path).length := by
    rw [List.length_map]
    exact (List.getElem?_eq_some_iff.mp hfirst).1
  rw [← List.getElem?_inj hlength hpaths, List.getElem?_map, List.getElem?_map, hfirst, hsecond,
    Option.map_some, Option.map_some, heq]

section Read

variable (h : (p.holding w).Scripted policy repo)

include h

/-- The answer to a read is the next one of the script for its file. -/
theorem Pool.Scripted.answer :
    (Repository.readFile w.file.path (some w.file.branch) p.repo).1 =
      scriptedAnswer (repo.queue w.file.path)[w.attempts]?.join
        (repo.inner.readFile w.file.path (some w.file.branch)) := by
  have hqueue : p.repo.queue w.file.path = (repo.queue w.file.path).drop w.attempts :=
    h.queue_eq w (by simp)
  have hinner : p.repo.inner = repo.inner := h.inner_eq
  rw [Faulty.readFile_fst, hqueue, List.head?_drop, hinner]

/-- A throttled read met a throttling fault, because the store behind the faults never throttles. -/
theorem Pool.Scripted.attempts_lt {e : Error}
    (he : (Repository.readFile w.file.path (some w.file.branch) p.repo).1 = .error e)
    (hthrottling : e.isThrottling = true) :
    w.attempts < throttledReads (repo.queue w.file.path) := by
  refine lt_throttledReads (h.throttled w (by simp)) ?_ hthrottling
  rw [h.answer] at he
  cases hfault : (repo.queue w.file.path)[w.attempts]?.join with
  | some fault =>
    rw [hfault] at he
    exact congrArg some (Except.error.inj he)
  | none =>
    rw [hfault] at he
    rw [Store.isThrottling_of_readFile he] at hthrottling
    cases hthrottling

/-- If a read is the last one, because no pause is left or because it was not throttled, then its
number is the one that the script gives. -/
theorem Pool.Scripted.attempts_eq (haccounts : (p.holding w).Accounts policy files)
    (hlast : ∀ e, (Repository.readFile w.file.path (some w.file.branch) p.repo).1 = .error e →
      e.isThrottling = true → policy.backoff.length ≤ w.attempts) :
    min (throttledReads (repo.queue w.file.path)) policy.backoff.length = w.attempts := by
  have hthrottled : w.attempts ≤ throttledReads (repo.queue w.file.path) :=
    h.throttled w (by simp)
  have hpauses : w.attempts ≤ policy.backoff.length := haccounts.attempts_le w (by simp)
  by_cases hpause : policy.backoff.length ≤ w.attempts
  · omega
  · have hanswer := h.answer
    have hend : throttledReads (repo.queue w.file.path) = w.attempts := by
      refine throttledReads_eq hthrottled fun e he ↦ ?_
      rw [he] at hanswer
      exact Bool.eq_false_iff.mpr fun hthrottling ↦ hpause (hlast e hanswer hthrottling)
    omega

theorem Pool.Scripted.called_inner_eq : (p.called w).repo.inner = repo.inner := by
  have hrepo : (p.called w).repo = (p.repo.nextRead w.file.path).2 := Faulty.readFile_snd _ _ _
  rw [hrepo, Faulty.nextRead_inner]
  exact h.inner_eq

/-- A read takes one fault of its own file. -/
theorem Pool.Scripted.called_queue_eq : (p.called w).repo.queue w.file.path =
    (repo.queue w.file.path).drop (w.attempts + 1) := by
  have hrepo : (p.called w).repo = (p.repo.nextRead w.file.path).2 := Faulty.readFile_snd _ _ _
  have hqueue : p.repo.queue w.file.path = (repo.queue w.file.path).drop w.attempts :=
    h.queue_eq w (by simp)
  rw [hrepo, Faulty.queue_nextRead_self, hqueue, List.tail_drop]

variable (haccounts : (p.holding w).Accounts policy files)
  (hpaths : (files.map DiscoveredFile.path).Nodup)

include haccounts hpaths

/-- The queues of the other workers stay as they are. -/
theorem Pool.Scripted.called_others {v : Worker} (hv : v ∈ p.workers) :
    (p.called w).repo.queue v.file.path = (repo.queue v.file.path).drop v.attempts ∧
      v.attempts ≤ throttledReads (repo.queue v.file.path) := by
  have hrepo : (p.called w).repo = (p.repo.nextRead w.file.path).2 := Faulty.readFile_snd _ _ _
  rw [hrepo, Faulty.queue_nextRead_of_ne _ (haccounts.path_ne hpaths hv)]
  exact ⟨h.queue_eq v (by simp [hv]), h.throttled v (by simp [hv])⟩

/-- What a read leaves is scripted, whether it was the last one of its file or its worker goes on,
at once or after a pause. -/
theorem Pool.Scripted.read : (p.read policy w).Scripted policy repo := by
  have hinner := h.called_inner_eq
  have hothers (v : Worker) (hv : v ∈ p.workers) := h.called_others haccounts hpaths hv
  obtain ⟨hlast, heq⟩ | ⟨⟨e, he, hthrottling, _⟩, hcases⟩ := Pool.read_cases policy p w
  · rw [heq]
    have hworkers := (p.called w).workers_finish { w with attempts := w.attempts + 1 }
      (Repository.readFile w.file.path (some w.file.branch) p.repo).1
    refine ⟨hinner, fun v hv ↦ (hothers v (hworkers.mem_iff.mp hv)).1,
      fun v hv ↦ (hothers v (hworkers.mem_iff.mp hv)).2, fun f hf ↦ ?_⟩
    obtain hf | hf := List.mem_append.mp hf
    · exact h.outcome_eq f hf
    · rw [List.mem_singleton.mp hf]
      dsimp only [outcomeOf, scriptedOutcome]
      rw [h.attempts_eq haccounts hlast, h.answer]
  · have hnext (v : Worker) (hv : v ∈ w.again :: p.workers) :
        (p.called w).repo.queue v.file.path = (repo.queue v.file.path).drop v.attempts ∧
          v.attempts ≤ throttledReads (repo.queue v.file.path) := by
      obtain rfl | hv := List.mem_cons.mp hv
      · exact ⟨h.called_queue_eq, h.attempts_lt he hthrottling⟩
      · exact hothers v hv
    obtain heq | ⟨due, _, heq⟩ := hcases
    · rw [heq]
      have hworkers : ((p.called w).holding w.again).workers = w.again :: p.workers :=
        (p.called w).workers_holding w.again
      exact ⟨hinner, fun v hv ↦ (hnext v (hworkers ▸ hv)).1, fun v hv ↦ (hnext v (hworkers ▸ hv)).2,
        h.outcome_eq⟩
    · rw [heq]
      have hworkers := (p.called w).workers_sleeping due w.again
      exact ⟨hinner, fun v hv ↦ (hnext v (hworkers.mem_iff.mp hv)).1,
        fun v hv ↦ (hnext v (hworkers.mem_iff.mp hv)).2, h.outcome_eq⟩

end Read

theorem Pool.Scripted.reserve (h : (p.holding w).Scripted policy repo) (reading : Nat) :
    (p.reserve w reading).Scripted policy repo := by
  have hsame (v : Worker) (hv : v ∈ ({ w with stage := .read } : Worker) :: p.workers) :
      ∃ u ∈ (p.holding w).workers, v.file = u.file ∧ v.attempts = u.attempts := by
    obtain rfl | hv := List.mem_cons.mp hv
    · exact ⟨w, by simp, rfl, rfl⟩
    · exact ⟨v, by simp [hv], rfl, rfl⟩
  obtain ⟨_, heq⟩ | ⟨_, heq⟩ := Pool.reserve_cases p w reading
  · rw [heq]
    have hworkers := p.workers_sleeping (p.limiter.slot reading) { w with stage := .read }
    exact h.of_workers (fun v hv ↦ hsame v (hworkers.mem_iff.mp hv)) rfl rfl
  · rw [heq]
    have hworkers := p.workers_holding { w with stage := .read }
    exact h.of_workers (fun v hv ↦ hsame v (hworkers ▸ hv)) rfl rfl

theorem Pool.Scripted.step {clock : Clock} (h : p.Scripted policy repo)
    (haccounts : p.Accounts policy files) (hpaths : (files.map DiscoveredFile.path).Nodup)
    (hstep : Pool.Step policy clock p q) : q.Scripted policy repo := by
  have htake {before after : List Worker} {w : Worker} (hready : p.ready = before ++ w :: after) :
      (({ p with ready := before ++ after } : Pool _).holding w).Scripted policy repo := by
    refine h.of_workers (fun v hv ↦ ⟨v, ?_, rfl, rfl⟩) rfl rfl
    exact (Pool.workers_take hready).mem_iff.mp hv
  cases hstep with
  | reserve hready _ _ => exact (htake hready).reserve _
  | read hready _ => exact (htake hready).read (haccounts.take hready) hpaths
  | wake htimers _ =>
    refine h.of_workers (fun v hv ↦ ⟨v, ?_, rfl, rfl⟩) rfl rfl
    exact (Pool.workers_woken htimers).mem_iff.mp hv

theorem Pool.Scripted.schedule {clock : Clock} {n : Nat} (h : p.Scripted policy repo)
    (haccounts : p.Accounts policy files) (hpaths : (files.map DiscoveredFile.path).Nodup)
    (hschedule : p.Schedule policy clock n q) : q.Scripted policy repo := by
  induction hschedule with
  | start => exact h
  | step hbefore hstep ih => exact ih.step (haccounts.schedule hbefore).1 hpaths hstep
  | pass _ _ ih => exact ⟨ih.inner_eq, ih.queue_eq, ih.throttled, ih.outcome_eq⟩

theorem Pool.Scripted.start (policy : Policy) (files : List DiscoveredFile) (repo : Faulty Store)
    (now : Nat) : (Pool.start policy files repo now).Scripted policy repo := by
  have hfresh (w : Worker) (hw : w ∈ (Pool.start policy files repo now).workers) :
      w.attempts = 0 := by
    rw [Pool.workers_start, List.mem_mapIdx] at hw
    obtain ⟨index, hindex, rfl⟩ := hw
    rfl
  refine ⟨rfl, fun w hw ↦ ?_, fun w hw ↦ ?_, nofun⟩
  · rw [hfresh w hw]
    rfl
  · rw [hfresh w hw]
    exact Nat.zero_le _

/-! ### Every schedule -/

/-- Once no worker is left, the outcomes are those that the files had from the start. -/
theorem Pool.Scripted.outcomes_eq (h : p.Scripted policy repo) (haccounts : p.Accounts policy files)
    (hworkers : p.workers = []) :
    p.outcomes files.length = files.map (outcomeOf policy repo) := by
  have hfound : ∀ outcome ∈ p.outcomes files.length,
      outcomeOf policy repo outcome.file = outcome := by
    intro outcome houtcome
    obtain ⟨index, _, hlookup⟩ := List.mem_filterMap.mp houtcome
    obtain ⟨before, after, hsplit, _⟩ := List.lookup_eq_some_iff.mp hlookup
    exact (h.outcome_eq (index, outcome) (by simp [hsplit])).symm
  calc
    p.outcomes files.length =
        (p.outcomes files.length).map fun outcome ↦ outcomeOf policy repo outcome.file := by
      rw [List.map_congr_left hfound, List.map_id'']
      exact fun _ ↦ rfl
    _ = ((p.outcomes files.length).map Outcome.file).map (outcomeOf policy repo) := by
      rw [List.map_map]
      rfl
    _ = files.map (outcomeOf policy repo) := by rw [haccounts.outcomes hworkers]

/-- Whatever the order of the workers and on either clock, reading takes a bounded number of steps,
can go on while a worker is left, and then has one outcome for each file, in the order of the files.
The outcome of a file is made from its own queue of faults, its content and the number of pauses
alone. The reading itself follows such a schedule to its end. -/
theorem reading_schedule_independent (policy : Policy) (files : List DiscoveredFile)
    (repo : Faulty Store) (now : Nat) (hpaths : (files.map DiscoveredFile.path).Nodup) :
    (∀ clock n p, (Pool.start policy files repo now).Schedule policy clock n p →
      n ≤ 4 * files.length * (policy.backoff.length + 1) ∧
      (p.workers ≠ [] → ∃ next, p.Schedule policy clock 1 next) ∧
      (p.workers = [] → p.outcomes files.length = files.map fun file ↦
        scriptedOutcome policy.backoff.length (repo.queue file.path)
          (repo.inner.readFile file.path (some file.branch)) file)) ∧
    ∃ n, (Pool.start policy files repo now).Schedule policy .virtual n
        (readAll policy (fun _ ↦ false) files repo now) ∧
      (readAll policy (fun _ ↦ false) files repo now).workers = [] := by
  have haccounts := Pool.Accounts.start policy files repo now
  refine ⟨fun clock n p hschedule ↦ ?_, readAll_schedule_ends policy files repo now⟩
  obtain ⟨hp, hbound⟩ := haccounts.schedule hschedule
  refine ⟨?_, fun hworkers ↦ ?_, fun hworkers ↦ ?_⟩
  · have hstart := Pool.potential_start_lt policy files repo now
    unfold stepBound at hstart
    omega
  · refine hp.exists_step (fun hvirtual ↦ ?_) hworkers
    subst hvirtual
    exact Pool.Ahead.schedule (Pool.Ahead.start policy files repo now) hschedule
  · have hscripted := (Pool.Scripted.start policy files repo now).schedule haccounts hpaths
      hschedule
    exact hscripted.outcomes_eq hp hworkers

/-- A file that is throttled twice, with one pause left for it, fails with the second fault; a file
that is refused once fails at once; and a file that nothing stands in front of is read. -/
theorem reading_schedule_independent_faults :
    let refused : Error := ⟨.authorization, "403"⟩
    let store : Store := .ofBranch "main" [("A.java", "class A"), ("C.java", "class C")] true
    let reads := [("A.java", [some ⟨.rateLimited, "429"⟩, some ⟨.malformedResponse, "empty"⟩]),
      ("B.java", [some refused])]
    let repo : Faulty Store := ⟨store, { reads }⟩
    let files : List DiscoveredFile :=
      [⟨"A.java", .other, "main"⟩, ⟨"B.java", .other, "main"⟩, ⟨"C.java", .other, "main"⟩]
    let policy : Policy := { maxWorkers := 2, backoff := [20] }
    (files.map DiscoveredFile.path).Nodup ∧
      ∀ clock n p, (Pool.start policy files repo 0).Schedule policy clock n p → p.workers = [] →
        (p.outcomes 3).map (fun outcome ↦ (outcome.file.path, outcome.attempts)) =
          [("A.java", 2), ("B.java", 1), ("C.java", 1)] ∧
        (p.outcomes 3).map Outcome.result =
          [.error ⟨.malformedResponse, "empty"⟩, .error refused, .ok "class C"] := by
  intro refused store reads repo files policy
  have hpaths : (files.map DiscoveredFile.path).Nodup := by decide
  refine ⟨hpaths, fun clock n p hschedule hworkers ↦ ?_⟩
  have houtcomes :=
    ((reading_schedule_independent policy files repo 0 hpaths).1 clock n p hschedule).2.2 hworkers
  have hlength : files.length = 3 := rfl
  rw [hlength] at houtcomes
  rw [houtcomes]
  exact ⟨by decide +kernel, by rfl⟩

end SuiteMigration.Reading
