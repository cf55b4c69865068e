import Mathlib.Algebra.BigOperators.Group.List.Basic
import Mathlib.Algebra.GroupWithZero.Nat
import Mathlib.Data.List.Perm.Basic
import SuiteMigration.Reading.Pool

/-!
A pool of workers gives every file its outcome. Each position of the list is at all times with one
worker or one outcome, and every step uses up some of the potential of the workers: of the four
steps that an attempt can take, and of the attempts that the policy allows. The bound on the steps
of a pool is larger than the potential that it starts with, so a pool that nobody stops ends with an
outcome for each file.
-/

set_option autoImplicit false
set_option relaxedAutoImplicit false

namespace SuiteMigration.Reading

open SuiteMigration.Repository

variable {R : Type} {policy : Policy} {files : List DiscoveredFile}

/-- The workers that have no outcome yet. -/
def Pool.workers (p : Pool R) : List Worker :=
  p.ready ++ p.timers.map Timer.worker ++ p.waiting

/-- The pool with a worker in front of those that are ready. -/
def Pool.holding (p : Pool R) (w : Worker) : Pool R :=
  { p with ready := w :: p.ready }

/-- Every position of the files is with one worker or one outcome, which is about the file there. A
worker has made no more attempts than there are pauses, and no file waits while nobody works. -/
structure Pool.Accounts (policy : Policy) (files : List DiscoveredFile) (p : Pool R) : Prop where
  positions : (p.workers.map Worker.index ++ p.finished.map Prod.fst).Perm
    (List.range files.length)
  worker_file : ∀ w ∈ p.workers, files[w.index]? = some w.file
  outcome_file : ∀ f ∈ p.finished, files[f.1]? = some f.2.file
  attempts_le : ∀ w ∈ p.workers, w.attempts ≤ policy.backoff.length
  busy : p.waiting ≠ [] → p.ready ≠ [] ∨ p.timers ≠ []

theorem Pool.Accounts.length_eq {p : Pool R} (h : p.Accounts policy files) :
    p.workers.length + p.finished.length = files.length := by
  simpa using h.positions.length_eq

/-- Workers that change places only keep the accounts. -/
theorem Pool.Accounts.of_perm {p q : Pool R} (h : p.Accounts policy files)
    (hworkers : q.workers.Perm p.workers) (hfinished : q.finished = p.finished)
    (hbusy : q.waiting ≠ [] → q.ready ≠ [] ∨ q.timers ≠ []) : q.Accounts policy files := by
  refine ⟨?_, fun w hw ↦ h.worker_file w (hworkers.mem_iff.mp hw), ?_,
    fun w hw ↦ h.attempts_le w (hworkers.mem_iff.mp hw), hbusy⟩
  · rw [hfinished]
    exact ((hworkers.map _).append_right _).trans h.positions
  · rw [hfinished]
    exact h.outcome_file

/-! ### Where the positions go -/

@[simp] theorem Pool.workers_holding (p : Pool R) (w : Worker) :
    (p.holding w).workers = w :: p.workers := by
  simp [Pool.workers, Pool.holding]

theorem Pool.workers_sleeping (p : Pool R) (due : Nat) (w : Worker) :
    ({ p with timers := p.timers ++ [⟨due, w⟩] } : Pool R).workers.Perm (w :: p.workers) := by
  simp only [Pool.workers, List.map_append, List.map_cons, List.map_nil]
  rw [← List.append_assoc, List.append_assoc _ [w], List.singleton_append]
  exact List.perm_middle

/-- A worker that goes on as itself, with the pool otherwise the same, keeps its position. -/
theorem Pool.Accounts.replace {p q : Pool R} {w : Worker}
    (h : (p.holding w).Accounts policy files) (again : Worker)
    (hindex : again.index = w.index) (hfile : again.file = w.file)
    (hattempts : again.attempts ≤ policy.backoff.length) (hfinished : q.finished = p.finished)
    (hworkers : q.workers.Perm (again :: p.workers)) (hbusy : q.ready ≠ [] ∨ q.timers ≠ []) :
    q.Accounts policy files := by
  have hmem {v : Worker} (hv : v ∈ q.workers) : v = again ∨ v ∈ p.workers :=
    List.mem_cons.mp (hworkers.mem_iff.mp hv)
  refine ⟨?_, ?_, ?_, ?_, fun _ ↦ hbusy⟩
  · have hpositions := h.positions
    rw [Pool.workers_holding] at hpositions
    refine List.Perm.trans ?_ hpositions
    rw [hfinished]
    refine List.Perm.append_right _ ?_
    simpa [hindex] using hworkers.map Worker.index
  · intro v hv
    rcases hmem hv with rfl | hv
    · rw [hindex, hfile]
      exact h.worker_file w (by simp)
    · exact h.worker_file v (by simp [hv])
  · rw [hfinished]
    exact h.outcome_file
  · intro v hv
    rcases hmem hv with rfl | hv
    · exact hattempts
    · exact h.attempts_le v (by simp [hv])

theorem Pool.workers_finish (p : Pool R) (w : Worker) (result : Except Error String) :
    (p.finish w result).workers.Perm p.workers := by
  simp only [Pool.workers, Pool.finish]
  calc
    (p.ready ++ p.waiting.take 1 ++ p.timers.map Timer.worker ++ p.waiting.drop 1).Perm
        (p.ready ++ p.timers.map Timer.worker ++ p.waiting.take 1 ++ p.waiting.drop 1) := by
      refine List.Perm.append_right _ ?_
      rw [List.append_assoc, List.append_assoc]
      exact List.Perm.append_left _ List.perm_append_comm
    _ = p.ready ++ p.timers.map Timer.worker ++ p.waiting := by
      rw [List.append_assoc, List.take_append_drop]

/-- An outcome takes over the position of its worker. -/
theorem Pool.Accounts.finish {p : Pool R} {w : Worker} (h : (p.holding w).Accounts policy files)
    (done : Worker) (hindex : done.index = w.index) (hfile : done.file = w.file)
    (result : Except Error String) : (p.finish done result).Accounts policy files := by
  have hworkers := p.workers_finish done result
  have hmem {v : Worker} (hv : v ∈ (p.finish done result).workers) : v ∈ (p.holding w).workers := by
    rw [Pool.workers_holding]
    exact List.mem_cons_of_mem _ (hworkers.mem_iff.mp hv)
  refine ⟨?_, fun v hv ↦ h.worker_file v (hmem hv), ?_, fun v hv ↦ h.attempts_le v (hmem hv), ?_⟩
  · have hpositions := h.positions
    rw [Pool.workers_holding] at hpositions
    refine List.Perm.trans ?_ hpositions
    have hfinished : (p.finish done result).finished.map Prod.fst =
        p.finished.map Prod.fst ++ [w.index] := by
      simp [Pool.finish, hindex]
    rw [hfinished, List.map_cons, List.cons_append]
    refine ((hworkers.map _).append_right _).trans ?_
    rw [← List.append_assoc]
    exact List.perm_append_comm
  · intro f hf
    rcases List.mem_append.mp hf with hf | hf
    · exact h.outcome_file f hf
    · obtain rfl := List.mem_singleton.mp hf
      change files[done.index]? = some done.file
      rw [hindex, hfile]
      exact h.worker_file w (by simp)
  · intro hwaiting
    left
    have hne : p.waiting ≠ [] := fun hnil ↦ hwaiting (by simp [Pool.finish, hnil])
    simp [Pool.finish, hne]

/-! ### What a step does -/

section Steps

variable [Repository R]

/-- The pool after a call to read the file of a worker. -/
def Pool.called (p : Pool R) (w : Worker) : Pool R :=
  { p with
    repo := (Repository.readFile w.file.path (some w.file.branch) p.repo).2
    calls := p.calls ++ [⟨p.now, w.file.path, w.file.branch⟩] }

/-- The worker that makes a further attempt. -/
def Worker.again (w : Worker) : Worker :=
  { w with attempts := w.attempts + 1, stage := .reserve }

/-- A worker that reads makes a further attempt, now or after a pause, if its read was throttled and
the policy has a pause left; otherwise it has its outcome. -/
theorem Pool.read_cases (policy : Policy) (p : Pool R) (w : Worker) :
    ((∀ e, (Repository.readFile w.file.path (some w.file.branch) p.repo).1 = .error e →
          e.isThrottling = true → policy.backoff.length ≤ w.attempts) ∧
        p.read policy w = (p.called w).finish { w with attempts := w.attempts + 1 }
          (Repository.readFile w.file.path (some w.file.branch) p.repo).1) ∨
      (∃ e, (Repository.readFile w.file.path (some w.file.branch) p.repo).1 = .error e ∧
          e.isThrottling = true ∧ w.attempts < policy.backoff.length) ∧
        (p.read policy w = (p.called w).holding w.again ∨
          ∃ due, p.now ≤ due ∧ p.read policy w =
            { p.called w with timers := p.timers ++ [⟨due, w.again⟩] }) := by
  unfold Pool.read
  rcases hread : Repository.readFile w.file.path (some w.file.branch) p.repo with
    ⟨e | text, repo⟩
  · dsimp only
    split
    next pause hthrottling hpause =>
      refine Or.inr ⟨⟨e, rfl, hthrottling, ?_⟩, ?_⟩
      · simpa using (List.getElem?_eq_some_iff.mp hpause).1
      · split
        · exact Or.inl (by simp [Pool.called, Pool.holding, Worker.again, hread])
        · refine Or.inr ⟨p.now + pause, Nat.le_add_right _ _, ?_⟩
          simp [Pool.called, Worker.again, hread]
    next hlast =>
      refine Or.inl ⟨fun e' he' hthrottling ↦ ?_, by simp [Pool.called, hread]⟩
      obtain rfl : e = e' := Except.error.inj he'
      refine Nat.not_lt.mp fun hlt ↦ hlast policy.backoff[w.attempts] hthrottling ?_
      simp [hlt]
  · exact Or.inl ⟨nofun, by simp [Pool.called, hread]⟩

/-- A worker that goes on sleeps until the moment that it has reserved, or reads. -/
theorem Pool.advance_cases (policy : Policy) (p : Pool R) (w : Worker) :
    (w.stage = .reserve ∧ ∃ limiter due, p.advance policy w =
        { p with limiter, timers := p.timers ++ [⟨due, { w with stage := .read }⟩] }) ∨
      ∃ limiter, p.advance policy w =
        ({ p with limiter } : Pool R).read policy { w with stage := .read } := by
  unfold Pool.advance
  split
  next hstage =>
    refine Or.inr ⟨p.limiter, ?_⟩
    rw [← hstage]
  next hstage =>
    dsimp only
    split
    · exact Or.inl ⟨hstage, _, _, rfl⟩
    · exact Or.inr ⟨_, rfl⟩

theorem Pool.Accounts.read {p : Pool R} {w : Worker} (h : (p.holding w).Accounts policy files) :
    (p.read policy w).Accounts policy files := by
  have hcalled : ((p.called w).holding w).Accounts policy files :=
    ⟨h.positions, h.worker_file, h.outcome_file, h.attempts_le, h.busy⟩
  rcases Pool.read_cases policy p w with ⟨_, heq⟩ | ⟨⟨_, _, _, hlt⟩, heq | ⟨due, _, heq⟩⟩
  · rw [heq]
    exact hcalled.finish { w with attempts := w.attempts + 1 } rfl rfl _
  · rw [heq]
    refine h.replace w.again rfl rfl hlt rfl ?_ (Or.inl (List.cons_ne_nil _ _))
    exact List.Perm.refl _
  · rw [heq]
    refine h.replace w.again rfl rfl hlt rfl ?_ (Or.inr (by simp))
    exact Pool.workers_sleeping (p.called w) due w.again

theorem Pool.Accounts.advance {p : Pool R} {w : Worker}
    (h : (p.holding w).Accounts policy files) : (p.advance policy w).Accounts policy files := by
  have hattempts : w.attempts ≤ policy.backoff.length := h.attempts_le w (by simp)
  rcases Pool.advance_cases policy p w with ⟨_, limiter, due, heq⟩ | ⟨limiter, heq⟩
  · rw [heq]
    refine h.replace { w with stage := .read } rfl rfl hattempts rfl ?_ (Or.inr (by simp))
    exact Pool.workers_sleeping p due { w with stage := .read }
  · rw [heq]
    refine Pool.Accounts.read ?_
    refine h.replace { w with stage := .read } rfl rfl hattempts rfl ?_
      (Or.inl (List.cons_ne_nil _ _))
    exact List.Perm.refl _

/-! ### How many steps there are -/

omit [Repository R] in
theorem earliest?_eq_none_iff (timers : List Timer) : earliest? timers = none ↔ timers = [] := by
  have hsome (list : List Timer) (best : Nat) :
      list.foldl (fun best t ↦ some (min (best.getD t.due) t.due)) (some best) ≠ none := by
    induction list generalizing best with
    | nil => exact Option.some_ne_none best
    | cons t rest ih => exact ih _
  cases timers with
  | nil => simp [earliest?]
  | cons t rest =>
    simp only [earliest?, List.foldl_cons, reduceCtorEq, iff_false]
    exact hsome rest _

/-- Somebody waits for the earliest time. -/
theorem exists_due_of_earliest? {timers : List Timer} {time : Nat}
    (h : earliest? timers = some time) : ∃ t ∈ timers, t.due ≤ time := by
  have hbest (list : List Timer) (best : Nat)
      (hlist : list.foldl (fun best t ↦ some (min (best.getD t.due) t.due)) (some best) =
        some time) : best ≤ time ∨ ∃ t ∈ list, t.due ≤ time := by
    induction list generalizing best with
    | nil => exact Or.inl (Nat.le_of_eq (Option.some.inj hlist))
    | cons t rest ih =>
      rcases ih _ hlist with hle | ⟨u, hu, hle⟩
      · have hcases : best ≤ time ∨ t.due ≤ time := by
          simp only [Option.getD_some] at hle
          omega
        exact hcases.imp_right fun hdue ↦ ⟨t, List.mem_cons_self, hdue⟩
      · exact Or.inr ⟨u, List.mem_cons_of_mem _ hu, hle⟩
  cases timers with
  | nil => cases h
  | cons t rest =>
    rcases hbest rest _ h with hle | ⟨u, hu, hle⟩
    · exact ⟨t, List.mem_cons_self, by simpa using hle⟩
    · exact ⟨u, List.mem_cons_of_mem _ hu, hle⟩

/-- Nobody waits for an earlier time than the earliest. -/
theorem le_due_of_earliest? {timers : List Timer} {time : Nat}
    (h : earliest? timers = some time) : ∀ t ∈ timers, time ≤ t.due := by
  have hbest (list : List Timer) (best : Nat)
      (hlist : list.foldl (fun best t ↦ some (min (best.getD t.due) t.due)) (some best) =
        some time) : time ≤ best ∧ ∀ t ∈ list, time ≤ t.due := by
    induction list generalizing best with
    | nil => exact ⟨Nat.le_of_eq (Option.some.inj hlist).symm, nofun⟩
    | cons t rest ih =>
      obtain ⟨hle, hrest⟩ := ih _ hlist
      simp only [Option.getD_some] at hle
      refine ⟨by omega, fun u hu ↦ ?_⟩
      obtain rfl | hu := List.mem_cons.mp hu
      · omega
      · exact hrest u hu
  cases timers with
  | nil => cases h
  | cons t rest =>
    obtain ⟨hle, hrest⟩ := hbest rest _ h
    simp only [Option.getD_none] at hle
    intro u hu
    obtain rfl | hu := List.mem_cons.mp hu
    · omega
    · exact hrest u hu

/-- The steps that a ready worker may still take: four for each attempt that is left, two of which
are over once it has reserved its moment. -/
def Worker.steps (policy : Policy) (w : Worker) : Nat :=
  4 * (policy.backoff.length + 1 - w.attempts) - (if w.stage = .read then 2 else 0)

/-- The steps that the workers may still take; one that waits has to be woken first. -/
def Pool.potential (policy : Policy) (p : Pool R) : Nat :=
  (p.ready.map (Worker.steps policy)).sum +
    (p.timers.map fun t ↦ t.worker.steps policy + 1).sum +
    (p.waiting.map (Worker.steps policy)).sum

omit [Repository R] in
@[simp] theorem Pool.potential_holding (p : Pool R) (w : Worker) :
    (p.holding w).potential policy = w.steps policy + p.potential policy := by
  simp only [Pool.potential, Pool.holding, List.map_cons, List.sum_cons]
  omega

omit [Repository R] in
theorem Pool.potential_sleeping (p : Pool R) (due : Nat) (w : Worker) :
    ({ p with timers := p.timers ++ [⟨due, w⟩] } : Pool R).potential policy =
      w.steps policy + 1 + p.potential policy := by
  simp only [Pool.potential, List.map_append, List.sum_append, List.map_cons, List.map_nil,
    List.sum_cons, List.sum_nil]
  omega

omit [Repository R] in
theorem Pool.potential_finish (p : Pool R) (w : Worker) (result : Except Error String) :
    (p.finish w result).potential policy = p.potential policy := by
  have hwaiting : ((p.waiting.take 1).map (Worker.steps policy)).sum +
      ((p.waiting.drop 1).map (Worker.steps policy)).sum =
      (p.waiting.map (Worker.steps policy)).sum := by
    rw [← List.sum_append, ← List.map_append, List.take_append_drop]
  simp only [Pool.potential, Pool.finish, List.map_append, List.sum_append]
  omega

theorem Pool.potential_read_lt (policy : Policy) (p : Pool R) (w : Worker)
    (h : w.attempts ≤ policy.backoff.length) :
    (p.read policy w).potential policy < w.steps policy + p.potential policy := by
  have hcalled : (p.called w).potential policy = p.potential policy := rfl
  rcases Pool.read_cases policy p w with ⟨_, heq⟩ | ⟨⟨_, _, _, hlt⟩, heq | ⟨due, _, heq⟩⟩
  · rw [heq, Pool.potential_finish, hcalled, Worker.steps]
    split <;> omega
  · rw [heq, Pool.potential_holding, hcalled]
    simp only [Worker.steps, Worker.again, reduceCtorEq, if_false]
    split <;> omega
  · rw [heq]
    refine (Pool.potential_sleeping (p.called w) due w.again).trans_lt ?_
    rw [hcalled]
    simp only [Worker.steps, Worker.again, reduceCtorEq, if_false]
    split <;> omega

theorem Pool.potential_advance_lt (policy : Policy) (p : Pool R) {w : Worker}
    (h : w.attempts ≤ policy.backoff.length) :
    (p.advance policy w).potential policy < (p.holding w).potential policy := by
  rw [Pool.potential_holding]
  rcases Pool.advance_cases policy p w with ⟨hstage, limiter, due, heq⟩ | ⟨limiter, heq⟩
  · rw [heq]
    refine (Pool.potential_sleeping p due { w with stage := .read }).trans_lt ?_
    simp only [Worker.steps, hstage, reduceCtorEq, if_true, if_false]
    omega
  · rw [heq]
    have hread := Pool.potential_read_lt policy { p with limiter } { w with stage := .read } h
    have hsteps : Worker.steps policy { w with stage := .read } ≤ w.steps policy := by
      simp only [Worker.steps, if_true]
      split <;> omega
    exact Nat.lt_of_lt_of_le hread (Nat.add_le_add_right hsteps _)

omit [Repository R] in
theorem Pool.workers_wake {p : Pool R} (hready : p.ready = []) (time : Nat) :
    (p.wake time).workers.Perm p.workers := by
  simp only [Pool.workers, Pool.wake, hready, List.nil_append]
  refine List.Perm.append_right _ ?_
  rw [← List.map_append]
  exact (List.filter_append_perm _ p.timers).map _

omit [Repository R] in
theorem Pool.Accounts.wake {p : Pool R} (h : p.Accounts policy files) (hready : p.ready = [])
    {time : Nat} (htime : earliest? p.timers = some time) :
    (p.wake time).Accounts policy files := by
  have hwoken : (p.wake time).ready ≠ [] := by
    obtain ⟨t, ht, hdue⟩ := exists_due_of_earliest? htime
    refine List.ne_nil_of_mem (List.mem_map.mpr ⟨t, List.mem_filter.mpr ⟨ht, ?_⟩, rfl⟩)
    exact decide_eq_true hdue
  exact h.of_perm (Pool.workers_wake hready time) rfl fun _ ↦ Or.inl hwoken

omit [Repository R] in
theorem Pool.potential_wake_lt (policy : Policy) {p : Pool R} (hready : p.ready = []) {time : Nat}
    (htime : earliest? p.timers = some time) :
    (p.wake time).potential policy < p.potential policy := by
  let due := p.timers.filter fun t ↦ decide (t.due ≤ time)
  let later := p.timers.filter fun t ↦ !decide (t.due ≤ time)
  have hsplit : (p.timers.map fun t ↦ t.worker.steps policy + 1).sum =
      (due.map fun t ↦ t.worker.steps policy + 1).sum +
        (later.map fun t ↦ t.worker.steps policy + 1).sum := by
    rw [← List.sum_append, ← List.map_append]
    exact ((List.filter_append_perm _ p.timers).map _).symm.sum_eq
  have hdue : 0 < due.length := by
    obtain ⟨t, ht, hle⟩ := exists_due_of_earliest? htime
    exact List.length_pos_of_mem (List.mem_filter.mpr ⟨ht, decide_eq_true hle⟩)
  -- each worker that is woken has one step less to take
  have hwoken (list : List Timer) : (list.map fun t ↦ t.worker.steps policy + 1).sum =
      ((list.map Timer.worker).map (Worker.steps policy)).sum + list.length := by
    induction list with
    | nil => rfl
    | cons t rest ih =>
      simp only [List.map_cons, List.sum_cons, List.length_cons, ih]
      omega
  rw [hwoken due] at hsplit
  simp only [Pool.potential, Pool.wake, hready, List.map_nil, List.sum_nil]
  change ((due.map Timer.worker).map (Worker.steps policy)).sum +
    (later.map fun t ↦ t.worker.steps policy + 1).sum + _ < _
  omega

/-- With fuel for more than the potential of a pool it runs until every file has an outcome, or
until it is stopped. -/
theorem Pool.Accounts.run (stops : Nat → Bool) {fuel : Nat} {p : Pool R}
    (h : p.Accounts policy files) (hfuel : p.potential policy < fuel) :
    (p.run policy stops fuel).Accounts policy files ∧
      ((p.run policy stops fuel).workers = [] ∨
        0 < (p.run policy stops fuel).finished.length ∧
          stops (p.run policy stops fuel).finished.length = true) := by
  induction fuel generalizing p with
  | zero => omega
  | succ fuel ih =>
    unfold Pool.run
    split
    next w rest hready =>
      have hheld : ({ p with ready := rest } : Pool R).holding w = p := by
        rw [Pool.holding, ← hready]
      have hattempts : w.attempts ≤ policy.backoff.length :=
        h.attempts_le w (by simp [Pool.workers, hready])
      have hnext : (Pool.advance policy { p with ready := rest } w).Accounts policy files :=
        Pool.Accounts.advance (hheld.symm ▸ h)
      have hless := Pool.potential_advance_lt policy { p with ready := rest } hattempts
      rw [hheld] at hless
      dsimp only
      split
      next hstop =>
        obtain ⟨hgrown, hstops⟩ := Bool.and_eq_true_iff.mp hstop
        have hfinished := of_decide_eq_true hgrown
        exact ⟨hnext, Or.inr ⟨by omega, hstops⟩⟩
      next => exact ih hnext (by omega)
    next hready =>
      split
      next time htime =>
        have hless := Pool.potential_wake_lt policy hready htime
        exact ih (h.wake hready htime) (by omega)
      next hnone =>
        have htimers : p.timers = [] := (earliest?_eq_none_iff p.timers).mp hnone
        have hwaiting : p.waiting = [] := by
          by_contra hne
          rcases h.busy hne with hr | ht
          · exact hr hready
          · exact ht htimers
        exact ⟨h, Or.inl (by simp [Pool.workers, hready, htimers, hwaiting])⟩

/-! ### A whole reading -/

omit [Repository R] in
theorem Pool.workers_start (policy : Policy) (files : List DiscoveredFile) (repo : R) (now : Nat) :
    (Pool.start policy files repo now).workers =
      files.mapIdx fun index file ↦ ({ index, file } : Worker) := by
  simp [Pool.workers, Pool.start]

omit [Repository R] in
theorem Pool.Accounts.start (policy : Policy) (files : List DiscoveredFile) (repo : R)
    (now : Nat) : (Pool.start policy files repo now).Accounts policy files := by
  refine ⟨?_, ?_, by simp [Pool.start], ?_, ?_⟩
  · rw [Pool.workers_start, List.mapIdx_eq_zipIdx_map, List.map_map]
    have hindex : files.zipIdx.map Prod.snd = List.range files.length := by
      rw [List.zipIdx_map_snd, List.range_eq_range']
    simp only [Pool.start, List.map_nil, List.append_nil]
    rw [← hindex]
    exact List.Perm.refl _
  · intro w hw
    rw [Pool.workers_start, List.mem_mapIdx] at hw
    obtain ⟨index, hindex, rfl⟩ := hw
    exact List.getElem?_eq_getElem hindex
  · intro w hw
    rw [Pool.workers_start, List.mem_mapIdx] at hw
    obtain ⟨index, hindex, rfl⟩ := hw
    exact Nat.zero_le _
  · intro hwaiting
    left
    simp only [Pool.start, ne_eq, List.drop_eq_nil_iff, List.take_eq_nil_iff,
      List.length_mapIdx] at hwaiting ⊢
    rintro (hwidth | hnil)
    · simp only [Policy.workersFor] at hwidth
      omega
    · rw [List.mapIdx_eq_nil_iff] at hnil
      simp [hnil] at hwaiting

omit [Repository R] in
theorem Pool.potential_start_lt (policy : Policy) (files : List DiscoveredFile) (repo : R)
    (now : Nat) :
    (Pool.start policy files repo now).potential policy < stepBound policy files.length := by
  let workers : List Worker := files.mapIdx fun index file ↦ { index, file }
  let width := policy.workersFor files.length
  have hsteps : (workers.map (Worker.steps policy)).sum =
      workers.length * (4 * (policy.backoff.length + 1)) := by
    rw [List.map_eq_replicate_iff.mpr, List.sum_replicate_nat]
    intro w hw
    obtain ⟨index, hindex, rfl⟩ := List.mem_mapIdx.mp hw
    rfl
  have hsplit : ((workers.take width).map (Worker.steps policy)).sum +
      ((workers.drop width).map (Worker.steps policy)).sum =
      (workers.map (Worker.steps policy)).sum := by
    rw [← List.sum_append, ← List.map_append, List.take_append_drop]
  have hlength : workers.length = files.length := List.length_mapIdx
  calc
    (Pool.start policy files repo now).potential policy =
        (workers.map (Worker.steps policy)).sum := by
      rw [← hsplit]
      rfl
    _ = 4 * files.length * (policy.backoff.length + 1) := by
      rw [hsteps, hlength, ← Nat.mul_assoc, Nat.mul_comm files.length 4]
    _ < stepBound policy files.length := Nat.lt_succ_self _

/-- Reading gives every file its outcome, unless it is stopped. -/
theorem readAll_accounts (policy : Policy) (stops : Nat → Bool) (files : List DiscoveredFile)
    (repo : R) (now : Nat) :
    (readAll policy stops files repo now).Accounts policy files ∧
      ((readAll policy stops files repo now).workers = [] ∨
        0 < (readAll policy stops files repo now).finished.length ∧
          stops (readAll policy stops files repo now).finished.length = true) :=
  (Pool.Accounts.start policy files repo now).run stops
    (Pool.potential_start_lt policy files repo now)

omit [Repository R] in
/-- Once no worker is left, the outcomes are about the files, in their order. -/
theorem Pool.Accounts.outcomes {p : Pool R} (h : p.Accounts policy files)
    (hworkers : p.workers = []) : (p.outcomes files.length).map Outcome.file = files := by
  have hpositions := h.positions
  rw [hworkers, List.map_nil, List.nil_append] at hpositions
  have hlookup : ∀ index ∈ List.range files.length,
      (p.finished.lookup index).map Outcome.file = files[index]? := by
    intro index hindex
    obtain ⟨pair, hpair, rfl⟩ := List.mem_map.mp (hpositions.mem_iff.mpr hindex)
    cases hfound : p.finished.lookup pair.1 with
    | none => exact absurd (List.lookup_eq_none_iff.mp hfound pair hpair) (by simp)
    | some outcome =>
      obtain ⟨before, after, hsplit, _⟩ := List.lookup_eq_some_iff.mp hfound
      exact (h.outcome_file (pair.1, outcome) (by simp [hsplit])).symm
  have hrange (list : List DiscoveredFile) :
      (List.range list.length).filterMap (fun index ↦ list[index]?) = list := by
    induction list with
    | nil => rfl
    | cons file rest ih =>
      rw [List.length_cons, List.range_succ_eq_map, List.filterMap_cons, List.filterMap_map]
      simpa using ih
  calc
    (p.outcomes files.length).map Outcome.file =
        (List.range files.length).filterMap
          fun index ↦ (p.finished.lookup index).map Outcome.file := by
      rw [Pool.outcomes, List.map_filterMap]
    _ = (List.range files.length).filterMap fun index ↦ files[index]? :=
      List.filterMap_congr hlookup
    _ = files := hrange files

/-! ### What is read -/

/-- The repository is as it was, and the outcomes are what reading gives there. -/
structure Pool.Faithful (repo : R) (p : Pool R) : Prop where
  repo_eq : p.repo = repo
  result_eq : ∀ f ∈ p.finished,
    f.2.result = (Repository.readFile f.2.file.path (some f.2.file.branch) repo).1

theorem Pool.Faithful.read {repo : R}
    (hrepo : ∀ path branch, (Repository.readFile path branch repo).2 = repo) {p : Pool R}
    (h : p.Faithful repo) (w : Worker) : (p.read policy w).Faithful repo := by
  obtain ⟨rfl, hresult⟩ := h
  have hcalled : (p.called w).repo = p.repo := hrepo _ _
  rcases Pool.read_cases policy p w with ⟨_, heq⟩ | ⟨_, heq | ⟨due, _, heq⟩⟩
  · rw [heq]
    refine ⟨hcalled, fun f hf ↦ ?_⟩
    rcases List.mem_append.mp hf with hf | hf
    · exact hresult f hf
    · obtain rfl := List.mem_singleton.mp hf
      rfl
  · rw [heq]
    exact ⟨hcalled, hresult⟩
  · rw [heq]
    exact ⟨hcalled, hresult⟩

theorem Pool.Faithful.advance {repo : R}
    (hrepo : ∀ path branch, (Repository.readFile path branch repo).2 = repo) {p : Pool R}
    (h : p.Faithful repo) (policy : Policy) (w : Worker) :
    (p.advance policy w).Faithful repo := by
  rcases Pool.advance_cases policy p w with ⟨_, limiter, due, heq⟩ | ⟨limiter, heq⟩
  · rw [heq]
    exact ⟨h.repo_eq, h.result_eq⟩
  · rw [heq]
    refine Pool.Faithful.read hrepo ?_ _
    exact ⟨h.repo_eq, h.result_eq⟩

theorem Pool.Faithful.run {repo : R}
    (hrepo : ∀ path branch, (Repository.readFile path branch repo).2 = repo)
    (stops : Nat → Bool) (fuel : Nat) {p : Pool R} (h : p.Faithful repo) :
    (p.run policy stops fuel).Faithful repo := by
  induction fuel generalizing p with
  | zero => exact h
  | succ fuel ih =>
    unfold Pool.run
    split
    next w rest hready =>
      have hrest : ({ p with ready := rest } : Pool R).Faithful repo :=
        ⟨h.repo_eq, h.result_eq⟩
      have hnext := hrest.advance hrepo policy w
      dsimp only
      split
      · exact hnext
      · exact ih hnext
    next =>
      split
      · exact ih ⟨h.repo_eq, h.result_eq⟩
      · exact h

/-- Reading from a repository that reads leave alone gives the contents of its files. -/
theorem readAll_faithful {repo : R}
    (hrepo : ∀ path branch, (Repository.readFile path branch repo).2 = repo) (policy : Policy)
    (stops : Nat → Bool) (files : List DiscoveredFile) (now : Nat) :
    (readAll policy stops files repo now).Faithful repo :=
  Pool.Faithful.run hrepo stops _ ⟨rfl, by simp [Pool.start]⟩

theorem Pool.Faithful.outcome {repo : R} {p : Pool R} (h : p.Faithful repo) {total : Nat}
    {outcome : Outcome} (houtcome : outcome ∈ p.outcomes total) :
    outcome.result =
      (Repository.readFile outcome.file.path (some outcome.file.branch) repo).1 := by
  obtain ⟨index, _, hfound⟩ := List.mem_filterMap.mp houtcome
  obtain ⟨before, after, hsplit, _⟩ := List.lookup_eq_some_iff.mp hfound
  exact h.result_eq (index, outcome) (by simp [hsplit])

/-! ### What reading leaves alone -/

theorem Pool.view_read {α : Type} {view : R → α}
    (hview : ∀ path branch r, view (Repository.readFile path branch r).2 = view r)
    (policy : Policy) (p : Pool R) (w : Worker) : view (p.read policy w).repo = view p.repo := by
  have hcalled : view (p.called w).repo = view p.repo := hview _ _ _
  rcases Pool.read_cases policy p w with ⟨_, heq⟩ | ⟨_, heq | ⟨due, _, heq⟩⟩
  · rw [heq]
    exact hcalled
  · rw [heq]
    exact hcalled
  · rw [heq]
    exact hcalled

theorem Pool.view_advance {α : Type} {view : R → α}
    (hview : ∀ path branch r, view (Repository.readFile path branch r).2 = view r)
    (policy : Policy) (p : Pool R) (w : Worker) :
    view (p.advance policy w).repo = view p.repo := by
  rcases Pool.advance_cases policy p w with ⟨_, limiter, due, heq⟩ | ⟨limiter, heq⟩
  · rw [heq]
  · rw [heq, Pool.view_read hview]

theorem Pool.view_run {α : Type} {view : R → α}
    (hview : ∀ path branch r, view (Repository.readFile path branch r).2 = view r)
    (policy : Policy) (stops : Nat → Bool) (fuel : Nat) (p : Pool R) :
    view (p.run policy stops fuel).repo = view p.repo := by
  induction fuel generalizing p with
  | zero => rfl
  | succ fuel ih =>
    unfold Pool.run
    split
    next w rest hready =>
      have hnext := Pool.view_advance hview policy { p with ready := rest } w
      dsimp only
      split
      · exact hnext
      · rw [ih, hnext]
    next =>
      split
      · rw [ih]
        rfl
      · rfl

/-- Whatever single reads leave alone, reading all files leaves alone. -/
theorem view_readAll {α : Type} {view : R → α}
    (hview : ∀ path branch r, view (Repository.readFile path branch r).2 = view r)
    (policy : Policy) (stops : Nat → Bool) (files : List DiscoveredFile) (repo : R) (now : Nat) :
    view (readAll policy stops files repo now).repo = view repo :=
  Pool.view_run hview policy stops _ _

end Steps

end SuiteMigration.Reading
