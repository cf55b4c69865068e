import SuiteMigration.Proofs.Reading.Completion

/-!
Schedules of a pool of workers. Whichever worker can go on may do so next: it reserves the moment of
its read, reads, or is woken once that moment has come. On the clock of the wall time passes as it
likes and a worker may reserve with a reading that is out of date; the virtual clock stands still
while a worker is ready, and then jumps to the earliest time that a worker waits for. Every schedule
keeps the accounts of the pool and is short, and one that has not ended can go on. Running a pool
follows a schedule on the virtual clock.
-/

set_option autoImplicit false
set_option relaxedAutoImplicit false

namespace SuiteMigration.Reading

open SuiteMigration.Repository

variable {R : Type} {policy : Policy} {files : List DiscoveredFile}

/-! ### Steps and schedules -/

/-- A worker reserves the moment of its read with a reading of the clock, and sleeps until then if
it has not come yet. -/
def Pool.reserve (p : Pool R) (w : Worker) (reading : Nat) : Pool R :=
  let (slot, limiter) := p.limiter.reserve reading
  let w : Worker := { w with stage := .read }
  if p.now < slot then { p with limiter, timers := p.timers ++ [⟨slot, w⟩] }
  else { p with limiter, ready := w :: p.ready }

inductive Clock where
  | wall
  | virtual
  deriving DecidableEq, Repr

/-- The readings that a worker may have of a clock. The clock on the wall is read before the limiter
is locked, so that the reading may be out of date. -/
def Clock.Shows (now reading : Nat) : Clock → Prop
  | .wall => reading ≤ now
  | .virtual => reading = now

/-- The times to which a clock may move. -/
def Clock.Passes (p : Pool R) (time : Nat) : Clock → Prop
  | .wall => p.now ≤ time
  | .virtual => p.ready = [] ∧ earliest? p.timers = some time ∧ p.now ≤ time

section Steps

variable [Repository R]

/-- A step of some worker that can go on, whichever it is. -/
inductive Pool.Step (policy : Policy) (clock : Clock) : Pool R → Pool R → Prop
  | reserve {p : Pool R} {before after : List Worker} {w : Worker} {reading : Nat}
      (hready : p.ready = before ++ w :: after) (hstage : w.stage = .reserve)
      (hreading : clock.Shows p.now reading) :
      Step policy clock p (({ p with ready := before ++ after } : Pool R).reserve w reading)
  | read {p : Pool R} {before after : List Worker} {w : Worker}
      (hready : p.ready = before ++ w :: after) (hstage : w.stage = .read) :
      Step policy clock p (Pool.read policy { p with ready := before ++ after } w)
  | wake {p : Pool R} {before after : List Timer} {t : Timer}
      (htimers : p.timers = before ++ t :: after) (hdue : t.due ≤ p.now) :
      Step policy clock p { p with ready := p.ready ++ [t.worker], timers := before ++ after }

/-- A schedule that leads from a pool to another one with a number of steps of the workers. -/
inductive Pool.Schedule (policy : Policy) (clock : Clock) (p : Pool R) : Nat → Pool R → Prop
  | start : Schedule policy clock p 0 p
  | step {n : Nat} {q next : Pool R} (hschedule : Schedule policy clock p n q)
      (hstep : Pool.Step policy clock q next) : Schedule policy clock p (n + 1) next
  | pass {n : Nat} {q : Pool R} {time : Nat} (hschedule : Schedule policy clock p n q)
      (hpasses : clock.Passes q time) : Schedule policy clock p n { q with now := time }

theorem Pool.Schedule.trans {clock : Clock} {p q r : Pool R} {m n : Nat}
    (hfirst : p.Schedule policy clock m q) (hsecond : q.Schedule policy clock n r) :
    p.Schedule policy clock (m + n) r := by
  induction hsecond with
  | start => exact hfirst
  | step _ hstep ih => exact ih.step hstep
  | pass _ hpasses ih => exact ih.pass hpasses

theorem Pool.Step.reserve_holding {clock : Clock} {p : Pool R} {w : Worker} {reading : Nat}
    (hstage : w.stage = .reserve) (hreading : clock.Shows p.now reading) :
    Pool.Step policy clock (p.holding w) (p.reserve w reading) := by
  have hready : (p.holding w).ready = [] ++ w :: p.ready := rfl
  exact .reserve hready hstage hreading

theorem Pool.Step.read_holding {clock : Clock} {p : Pool R} {w : Worker}
    (hstage : w.stage = .read) : Pool.Step policy clock (p.holding w) (p.read policy w) := by
  have hready : (p.holding w).ready = [] ++ w :: p.ready := rfl
  exact .read hready hstage

/-! ### What steps keep -/

omit [Repository R] in
theorem Pool.workers_take {p : Pool R} {before after : List Worker} {w : Worker}
    (hready : p.ready = before ++ w :: after) :
    (({ p with ready := before ++ after } : Pool R).holding w).workers.Perm p.workers := by
  unfold Pool.workers
  refine List.Perm.append_right _ (List.Perm.append_right _ ?_)
  rw [hready]
  exact List.perm_middle.symm

omit [Repository R] in
theorem Pool.workers_woken {p : Pool R} {before after : List Timer} {t : Timer}
    (htimers : p.timers = before ++ t :: after) :
    ({ p with ready := p.ready ++ [t.worker], timers := before ++ after } : Pool R).workers.Perm
      p.workers := by
  unfold Pool.workers
  rw [htimers]
  refine List.Perm.append_right _ ?_
  simp only [List.map_append, List.map_cons, List.append_assoc]
  refine List.Perm.append_left _ ?_
  rw [List.singleton_append]
  exact List.perm_middle.symm

omit [Repository R] in
/-- A worker can be taken from any place among those that are ready. -/
theorem Pool.Accounts.take {p : Pool R} (h : p.Accounts policy files) {before after : List Worker}
    {w : Worker} (hready : p.ready = before ++ w :: after) :
    (({ p with ready := before ++ after } : Pool R).holding w).Accounts policy files :=
  h.of_perm (Pool.workers_take hready) rfl fun _ ↦ Or.inl (List.cons_ne_nil _ _)

omit [Repository R] in
theorem Pool.reserve_cases (p : Pool R) (w : Worker) (reading : Nat) :
    (p.now < p.limiter.slot reading ∧ p.reserve w reading =
        { p with
          limiter := (p.limiter.reserve reading).2
          timers := p.timers ++ [⟨p.limiter.slot reading, { w with stage := .read }⟩] }) ∨
      (p.limiter.slot reading ≤ p.now ∧ p.reserve w reading =
        ({ p with limiter := (p.limiter.reserve reading).2 } : Pool R).holding
          { w with stage := .read }) := by
  unfold Pool.reserve
  dsimp only
  split
  next hlater => exact Or.inl ⟨hlater, rfl⟩
  next hcome => exact Or.inr ⟨Nat.not_lt.mp hcome, rfl⟩

omit [Repository R] in
theorem Pool.Accounts.reserve {p : Pool R} {w : Worker} (h : (p.holding w).Accounts policy files)
    (reading : Nat) : (p.reserve w reading).Accounts policy files := by
  have hattempts : w.attempts ≤ policy.backoff.length := h.attempts_le w (by simp)
  obtain ⟨_, heq⟩ | ⟨_, heq⟩ := Pool.reserve_cases p w reading
  · rw [heq]
    refine h.replace { w with stage := .read } rfl rfl hattempts rfl ?_ (Or.inr (by simp))
    exact Pool.workers_sleeping p _ { w with stage := .read }
  · rw [heq]
    refine h.replace { w with stage := .read } rfl rfl hattempts rfl ?_
      (Or.inl (List.cons_ne_nil _ _))
    exact List.Perm.refl _

theorem Pool.Accounts.step {clock : Clock} {p q : Pool R} (h : p.Accounts policy files)
    (hstep : Pool.Step policy clock p q) : q.Accounts policy files := by
  cases hstep with
  | reserve hready _ _ => exact (h.take hready).reserve _
  | read hready _ => exact (h.take hready).read
  | wake htimers _ => exact h.of_perm (Pool.workers_woken htimers) rfl fun _ ↦ Or.inl (by simp)

/-! ### Every schedule ends -/

omit [Repository R] in
theorem Pool.potential_take {p : Pool R} {before after : List Worker} {w : Worker}
    (hready : p.ready = before ++ w :: after) :
    (({ p with ready := before ++ after } : Pool R).holding w).potential policy =
      p.potential policy := by
  simp only [Pool.potential, Pool.holding, hready, List.map_append, List.map_cons,
    List.sum_append, List.sum_cons]
  omega

omit [Repository R] in
theorem Pool.potential_reserve_lt {p : Pool R} {w : Worker} (hstage : w.stage = .reserve)
    (hattempts : w.attempts ≤ policy.backoff.length) (reading : Nat) :
    (p.reserve w reading).potential policy < (p.holding w).potential policy := by
  rw [Pool.potential_holding]
  obtain ⟨_, heq⟩ | ⟨_, heq⟩ := Pool.reserve_cases p w reading
  · rw [heq]
    refine (Pool.potential_sleeping p _ { w with stage := .read }).trans_lt ?_
    simp only [Worker.steps, hstage, reduceCtorEq, if_true, if_false]
    omega
  · rw [heq, Pool.potential_holding]
    refine Nat.add_lt_add_right ?_ _
    simp only [Worker.steps, hstage, reduceCtorEq, if_true, if_false]
    omega

/-- Every step uses up some of the potential of the workers. -/
theorem Pool.Accounts.potential_step_lt {clock : Clock} {p q : Pool R}
    (h : p.Accounts policy files) (hstep : Pool.Step policy clock p q) :
    q.potential policy < p.potential policy := by
  cases hstep with
  | @reserve before after w reading hready hstage _ =>
    have hattempts : w.attempts ≤ policy.backoff.length :=
      (h.take hready).attempts_le w (by simp)
    rw [← Pool.potential_take hready]
    exact Pool.potential_reserve_lt hstage hattempts _
  | @read before after w hready _ =>
    have hattempts : w.attempts ≤ policy.backoff.length :=
      (h.take hready).attempts_le w (by simp)
    rw [← Pool.potential_take hready, Pool.potential_holding]
    exact Pool.potential_read_lt policy _ w hattempts
  | wake htimers _ =>
    simp only [Pool.potential, htimers, List.map_append, List.map_cons, List.map_nil,
      List.sum_append, List.sum_cons, List.sum_nil]
    omega

theorem Pool.Accounts.schedule {clock : Clock} {p q : Pool R} {n : Nat}
    (h : p.Accounts policy files) (hschedule : p.Schedule policy clock n q) :
    q.Accounts policy files ∧ n + q.potential policy ≤ p.potential policy := by
  induction hschedule with
  | start => exact ⟨h, by omega⟩
  | step _ hstep ih =>
    have hless := ih.1.potential_step_lt hstep
    exact ⟨ih.1.step hstep, by omega⟩
  | pass _ _ ih => exact ⟨ih.1.of_perm (List.Perm.refl _) rfl ih.1.busy, ih.2⟩

/-- Nobody waits for a time that is over. -/
def Pool.Ahead (p : Pool R) : Prop :=
  ∀ t ∈ p.timers, p.now ≤ t.due

omit [Repository R] in
theorem Pool.Ahead.sleeping {p : Pool R} (h : p.Ahead) {due : Nat} (hdue : p.now ≤ due)
    (w : Worker) : ({ p with timers := p.timers ++ [⟨due, w⟩] } : Pool R).Ahead := by
  intro t ht
  obtain ht | ht := List.mem_append.mp ht
  · exact h t ht
  · rw [List.mem_singleton.mp ht]
    exact hdue

theorem Pool.Ahead.read {p : Pool R} (h : p.Ahead) (w : Worker) : (p.read policy w).Ahead := by
  have hcalled : (p.called w).Ahead := h
  obtain ⟨_, heq⟩ | ⟨_, heq | ⟨due, hdue, heq⟩⟩ := Pool.read_cases policy p w
  · rw [heq]
    exact hcalled
  · rw [heq]
    exact hcalled
  · rw [heq]
    exact hcalled.sleeping hdue w.again

omit [Repository R] in
theorem Pool.Ahead.reserve {p : Pool R} (h : p.Ahead) (w : Worker) (reading : Nat) :
    (p.reserve w reading).Ahead := by
  obtain ⟨hlater, heq⟩ | ⟨_, heq⟩ := Pool.reserve_cases p w reading
  · rw [heq]
    have hlimited : ({ p with limiter := (p.limiter.reserve reading).2 } : Pool R).Ahead := h
    exact hlimited.sleeping (Nat.le_of_lt hlater) _
  · rw [heq]
    exact h

omit [Repository R] in
theorem Pool.Ahead.start (policy : Policy) (files : List DiscoveredFile) (repo : R) (now : Nat) :
    (Pool.start policy files repo now).Ahead :=
  nofun

theorem Pool.Ahead.step {clock : Clock} {p q : Pool R} (h : p.Ahead)
    (hstep : Pool.Step policy clock p q) : q.Ahead := by
  cases hstep with
  | @reserve before after w reading _ _ _ =>
    have htaken : ({ p with ready := before ++ after } : Pool R).Ahead := h
    exact htaken.reserve w reading
  | @read before after w _ _ =>
    have htaken : ({ p with ready := before ++ after } : Pool R).Ahead := h
    exact htaken.read w
  | @wake before after t htimers _ =>
    intro u hu
    refine h u ?_
    rw [htimers]
    exact ((List.sublist_cons_self t after).append_left before).mem hu

/-- On the virtual clock nobody is woken late. -/
theorem Pool.Ahead.schedule {p q : Pool R} {n : Nat} (h : p.Ahead)
    (hschedule : p.Schedule policy .virtual n q) : q.Ahead := by
  induction hschedule with
  | start => exact h
  | step _ hstep ih => exact ih.step hstep
  | pass _ hpasses _ => exact le_due_of_earliest? hpasses.2.1

/-- While a worker is left, some worker can go on, at once or after time has passed. -/
theorem Pool.Accounts.exists_step {clock : Clock} {p : Pool R} (h : p.Accounts policy files)
    (hahead : clock = .virtual → p.Ahead) (hworkers : p.workers ≠ []) :
    ∃ next, p.Schedule policy clock 1 next := by
  cases hready : p.ready with
  | cons w rest =>
    have hheld : p = ({ p with ready := rest } : Pool R).holding w := by
      rw [Pool.holding, ← hready]
    rw [hheld]
    cases hstage : w.stage with
    | reserve =>
      have hshows : clock.Shows p.now p.now := by cases clock <;> simp [Clock.Shows]
      exact ⟨_, Schedule.start.step (.reserve_holding hstage hshows)⟩
    | read => exact ⟨_, Schedule.start.step (.read_holding hstage)⟩
  | nil =>
    obtain ⟨time, htime⟩ : ∃ time, earliest? p.timers = some time := by
      refine Option.ne_none_iff_exists'.mp fun hnone ↦ hworkers ?_
      have htimers : p.timers = [] := (earliest?_eq_none_iff p.timers).mp hnone
      have hwaiting : p.waiting = [] := by
        by_contra hne
        exact (h.busy hne).elim (· hready) (· htimers)
      simp [Pool.workers, hready, htimers, hwaiting]
    obtain ⟨t, ht, hdue⟩ := exists_due_of_earliest? htime
    obtain ⟨before, after, hsplit⟩ := List.append_of_mem ht
    have hpasses : clock.Passes p (max p.now time) := by
      cases clock with
      | wall => exact Nat.le_max_left _ _
      | virtual =>
        have hle : p.now ≤ time := Nat.le_trans (hahead rfl t ht) hdue
        rw [Nat.max_eq_right hle]
        exact ⟨hready, htime, hle⟩
    exact ⟨_, (Schedule.start.pass hpasses).step
      (.wake hsplit (Nat.le_trans hdue (Nat.le_max_right _ _)))⟩

/-! ### Running a pool follows a schedule -/

theorem Pool.advance_schedule (policy : Policy) (p : Pool R) (w : Worker) :
    ∃ n, (p.holding w).Schedule policy .virtual n (p.advance policy w) := by
  unfold Pool.advance
  split
  next hstage => exact ⟨1, Schedule.start.step (.read_holding hstage)⟩
  next hstage =>
    have hreserve : (p.holding w).Schedule policy .virtual 1 (p.reserve w p.now) :=
      Schedule.start.step (.reserve_holding hstage rfl)
    dsimp only [Limiter.reserve]
    obtain ⟨hlater, heq⟩ | ⟨hcome, heq⟩ := Pool.reserve_cases p w p.now
    · rw [heq] at hreserve
      rw [if_pos hlater]
      exact ⟨1, hreserve⟩
    · rw [heq] at hreserve
      rw [if_neg (Nat.not_lt.mpr hcome)]
      exact ⟨2, hreserve.step (.read_holding rfl)⟩

/-- The workers whose time has come are woken in the order of their timers. -/
theorem Pool.wake_schedule (policy : Policy) (p : Pool R) (kept timers : List Timer)
    (htimers : p.timers = kept ++ timers) :
    ∃ n, p.Schedule policy .virtual n
      { p with
        ready := p.ready ++ (timers.filter fun t ↦ decide (t.due ≤ p.now)).map Timer.worker
        timers := kept ++ timers.filter fun t ↦ !decide (t.due ≤ p.now) } := by
  induction timers generalizing p kept with
  | nil =>
    refine ⟨0, ?_⟩
    simp only [List.filter_nil, List.map_nil, List.append_nil] at htimers ⊢
    rw [← htimers]
    exact .start
  | cons t rest ih =>
    by_cases hdue : t.due ≤ p.now
    · obtain ⟨n, hrest⟩ := ih
        { p with ready := p.ready ++ [t.worker], timers := kept ++ rest } kept rfl
      refine ⟨1 + n, (Schedule.start.step (.wake htimers hdue)).trans ?_⟩
      simpa [hdue] using hrest
    · obtain ⟨n, hrest⟩ := ih p (kept ++ [t]) (by rw [htimers]; simp)
      exact ⟨n, by simpa [hdue] using hrest⟩

/-- Running a pool follows a schedule on the virtual clock. -/
theorem Pool.run_schedule (policy : Policy) (stops : Nat → Bool) (fuel : Nat) {p : Pool R}
    (h : p.Ahead) : ∃ n, p.Schedule policy .virtual n (p.run policy stops fuel) := by
  induction fuel generalizing p with
  | zero => exact ⟨0, .start⟩
  | succ fuel ih =>
    unfold Pool.run
    split
    next w rest hready =>
      obtain ⟨m, hadvance⟩ := Pool.advance_schedule policy { p with ready := rest } w
      have hheld : ({ p with ready := rest } : Pool R).holding w = p := by
        rw [Pool.holding, ← hready]
      rw [hheld] at hadvance
      dsimp only
      split
      · exact ⟨m, hadvance⟩
      · obtain ⟨n, hrest⟩ := ih (h.schedule hadvance)
        exact ⟨m + n, hadvance.trans hrest⟩
    next hready =>
      split
      next time htime =>
        obtain ⟨t, ht, hdue⟩ := exists_due_of_earliest? htime
        have hpass : p.Schedule policy .virtual 0 { p with now := time } :=
          Schedule.start.pass ⟨hready, htime, Nat.le_trans (h t ht) hdue⟩
        obtain ⟨m, hwoken⟩ := Pool.wake_schedule policy { p with now := time } [] p.timers rfl
        have hwake : p.Schedule policy .virtual (0 + m) (p.wake time) := by
          refine hpass.trans ?_
          simpa [Pool.wake, hready] using hwoken
        obtain ⟨n, hrest⟩ := ih (h.schedule hwake)
        exact ⟨0 + m + n, hwake.trans hrest⟩
      next => exact ⟨0, .start⟩

/-- Reading files follows a schedule on the virtual clock. -/
theorem readAll_schedule (policy : Policy) (stops : Nat → Bool) (files : List DiscoveredFile)
    (repo : R) (now : Nat) :
    ∃ n, (Pool.start policy files repo now).Schedule policy .virtual n
      (readAll policy stops files repo now) :=
  Pool.run_schedule policy stops _ (Pool.Ahead.start policy files repo now)

/-- Reading that nobody stops follows its schedule until no worker is left. -/
theorem readAll_schedule_ends (policy : Policy) (files : List DiscoveredFile) (repo : R)
    (now : Nat) :
    ∃ n, (Pool.start policy files repo now).Schedule policy .virtual n
        (readAll policy (fun _ ↦ false) files repo now) ∧
      (readAll policy (fun _ ↦ false) files repo now).workers = [] := by
  obtain ⟨n, hschedule⟩ := readAll_schedule policy (fun _ ↦ false) files repo now
  obtain ⟨_, hworkers | ⟨_, hstop⟩⟩ := readAll_accounts policy (fun _ ↦ false) files repo now
  · exact ⟨n, hschedule, hworkers⟩
  · cases hstop

end Steps

end SuiteMigration.Reading
