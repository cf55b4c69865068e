import SuiteMigration.Proofs.Reading.Schedule

/-!
Spacing of reads. The moments that a limiter gives out are an interval apart, in whatever order its
callers come and whatever readings of the clock they bring. On the virtual clock a worker reads at
the moment it has reserved, so that the reads of a pool, further attempts included, are moments of
one limiter: each is a full interval away from every other.
-/

set_option autoImplicit false
set_option relaxedAutoImplicit false

namespace SuiteMigration.Reading

open SuiteMigration.Repository

/-! ### The moments of a limiter -/

/-- A limiter after callers with these readings have reserved one after another. -/
def Limiter.after (l : Limiter) (readings : List Nat) : Limiter :=
  readings.foldl (fun l reading ↦ (l.reserve reading).2) l

/-- The moments that callers with these readings are given one after another. The order is that in
which they get hold of the limiter; as each has read the clock before that, the readings need not be
in order. -/
def Limiter.slots (l : Limiter) : List Nat → List Nat
  | [] => []
  | reading :: rest => (l.reserve reading).1 :: (l.reserve reading).2.slots rest

theorem Limiter.le_slot (l : Limiter) (reading : Nat) : reading ≤ l.slot reading := by
  unfold Limiter.slot
  split
  · exact Nat.le_max_right _ _
  · exact Nat.le_refl _

theorem Limiter.slots_append (l : Limiter) (first second : List Nat) :
    l.slots (first ++ second) = l.slots first ++ (l.after first).slots second := by
  induction first generalizing l with
  | nil => rfl
  | cons reading rest ih => exact congrArg (_ :: ·) (ih (l.reserve reading).2)

/-- Whatever is reserved later is an interval after what was reserved last. -/
theorem Limiter.add_interval_le_of_mem_slots {l : Limiter} {previous slot : Nat}
    {readings : List Nat} (hlast : l.last = some previous) (hslot : slot ∈ l.slots readings) :
    previous + l.interval ≤ slot := by
  induction readings generalizing l previous with
  | nil => cases hslot
  | cons reading rest ih =>
    have hnext : previous + l.interval ≤ l.slot reading := by
      unfold Limiter.slot
      rw [hlast]
      exact Nat.le_max_left _ _
    obtain rfl | hslot := List.mem_cons.mp hslot
    · exact hnext
    · have hrest : l.slot reading + l.interval ≤ slot := ih (l := (l.reserve reading).2) rfl hslot
      omega

theorem Limiter.pairwise_slots (l : Limiter) (readings : List Nat) :
    (l.slots readings).Pairwise fun earlier later ↦ earlier + l.interval ≤ later := by
  induction readings generalizing l with
  | nil => exact .nil
  | cons reading rest ih =>
    refine .cons (fun slot hslot ↦ ?_) (ih (l.reserve reading).2)
    exact Limiter.add_interval_le_of_mem_slots (l := (l.reserve reading).2) rfl hslot

theorem Limiter.forall₂_le_slots (l : Limiter) (readings : List Nat) :
    List.Forall₂ (· ≤ ·) readings (l.slots readings) := by
  induction readings generalizing l with
  | nil => exact .nil
  | cons reading rest ih => exact .cons (l.le_slot reading) (ih (l.reserve reading).2)

/-! ### The moments of the reads of a pool -/

/-- The moment at which a worker reads that goes on at a time, if reading is what it does then. -/
def Worker.moment? (time : Nat) (w : Worker) : Option Nat :=
  match w.stage with
  | .read => some time
  | .reserve => none

section Moments

variable {R : Type} {policy : Policy} {since : Nat} {p q : Pool R} {w : Worker}

/-- The moments of the reads of a pool: those that were made, and those that workers have reserved
and not come to yet. -/
def Pool.moments (p : Pool R) : List Nat :=
  p.calls.map Call.time ++ p.ready.filterMap (Worker.moment? p.now) ++
    p.timers.filterMap fun t ↦ t.worker.moment? t.due

theorem Pool.moments_ready (p : Pool R) (before after : List Worker) (w : Worker) :
    ({ p with ready := before ++ w :: after } : Pool R).moments.Perm
      ((w.moment? p.now).toList ++ ({ p with ready := before ++ after } : Pool R).moments) := by
  unfold Pool.moments
  simp only [List.filterMap_append, List.filterMap_cons]
  cases w.moment? p.now <;> grind

theorem Pool.moments_timers (p : Pool R) (before after : List Timer) (t : Timer) :
    ({ p with timers := before ++ t :: after } : Pool R).moments.Perm
      ((t.worker.moment? t.due).toList ++
        ({ p with timers := before ++ after } : Pool R).moments) := by
  unfold Pool.moments
  simp only [List.filterMap_append, List.filterMap_cons]
  cases t.worker.moment? t.due <;> grind

/-- The reads of a pool that started at a time are made at the moments that its limiter has given
out, in the order of the clock; every outcome took a read. -/
structure Pool.Spaced (policy : Policy) (since : Nat) (p : Pool R) : Prop where
  reserved : ∃ readings, p.limiter = Limiter.after { interval := policy.minInterval } readings ∧
    p.moments.Perm (Limiter.slots { interval := policy.minInterval } readings)
  /-- A file that no worker has taken yet starts with a reservation. -/
  fresh : ∀ w ∈ p.waiting, w.stage = .reserve
  calls_sorted : (p.calls.map Call.time).Pairwise (· ≤ ·)
  calls_time : ∀ call ∈ p.calls, since ≤ call.time ∧ call.time ≤ p.now
  since_le : since ≤ p.now
  finished_le : p.finished.length ≤ p.calls.length

theorem Pool.Spaced.of_moments (h : p.Spaced policy since) (hmoments : q.moments.Perm p.moments)
    (hlimiter : q.limiter = p.limiter) (hfresh : ∀ w ∈ q.waiting, w.stage = .reserve)
    (hcalls : q.calls = p.calls) (hnow : p.now ≤ q.now)
    (hfinished : q.finished.length ≤ q.calls.length) : q.Spaced policy since := by
  obtain ⟨readings, hafter, hslots⟩ := h.reserved
  refine ⟨⟨readings, hlimiter.trans hafter, hmoments.trans hslots⟩, hfresh,
    hcalls ▸ h.calls_sorted, fun call hcall ↦ ?_, Nat.le_trans h.since_le hnow, hfinished⟩
  obtain ⟨hsince, hle⟩ := h.calls_time call (hcalls ▸ hcall)
  exact ⟨hsince, Nat.le_trans hle hnow⟩

/-- A reservation gives out one more moment. -/
theorem Pool.Spaced.reserve (h : p.Spaced policy since) (w : Worker) :
    (p.reserve w p.now).Spaced policy since := by
  have hmoments : (p.reserve w p.now).moments.Perm (p.moments ++ [p.limiter.slot p.now]) := by
    obtain ⟨_, heq⟩ | ⟨hcome, heq⟩ := Pool.reserve_cases p w p.now
    · rw [heq]
      simp [Pool.moments, Worker.moment?]
    · -- nobody is given a moment that is over
      have hslot : p.limiter.slot p.now = p.now :=
        Nat.le_antisymm hcome (p.limiter.le_slot p.now)
      rw [heq, hslot]
      refine (Pool.moments_ready _ [] p.ready _).trans ?_
      exact List.perm_append_comm
  have hsame : (p.reserve w p.now).limiter = (p.limiter.reserve p.now).2 ∧
      (p.reserve w p.now).waiting = p.waiting ∧ (p.reserve w p.now).calls = p.calls ∧
      (p.reserve w p.now).now = p.now ∧ (p.reserve w p.now).finished = p.finished := by
    obtain ⟨_, heq⟩ | ⟨_, heq⟩ := Pool.reserve_cases p w p.now <;> rw [heq] <;>
      exact ⟨rfl, rfl, rfl, rfl, rfl⟩
  obtain ⟨hlimiter, hwaiting, hcalls, hnow, hfinished⟩ := hsame
  obtain ⟨readings, hafter, hslots⟩ := h.reserved
  refine ⟨⟨readings ++ [p.now], ?_, ?_⟩, hwaiting ▸ h.fresh, hcalls ▸ h.calls_sorted,
    by rw [hcalls, hnow]; exact h.calls_time, by rw [hnow]; exact h.since_le,
    by rw [hfinished, hcalls]; exact h.finished_le⟩
  · rw [hlimiter, hafter, Limiter.after, Limiter.after, List.foldl_append]
    rfl
  · rw [Limiter.slots_append, ← hafter]
    exact hmoments.trans (hslots.append_right _)

theorem Pool.Spaced.start (policy : Policy) (files : List DiscoveredFile) (repo : R) (now : Nat) :
    (Pool.start policy files repo now).Spaced policy now := by
  have hfresh (w : Worker) (hw : w ∈ files.mapIdx fun index file ↦ ({ index, file } : Worker)) :
      w.stage = .reserve := by
    obtain ⟨index, _, rfl⟩ := List.mem_mapIdx.mp hw
    rfl
  have hmoments : (Pool.start policy files repo now).moments = [] := by
    have hnone (w : Worker) (hw : w ∈ (Pool.start policy files repo now).ready) :
        w.moment? now = none := by
      rw [Worker.moment?, hfresh w (List.mem_of_mem_take hw)]
    simpa [Pool.moments, Pool.start] using hnone
  refine ⟨⟨[], rfl, ?_⟩, fun w hw ↦ hfresh w (List.mem_of_mem_drop hw), .nil,
    fun _ hcall ↦ absurd hcall List.not_mem_nil, Nat.le_refl _, Nat.le_refl _⟩
  rw [hmoments]
  exact .nil

/-! ### The times of the reads -/

theorem add_mul_le_of_pairwise {interval first time i : Nat} {times : List Nat}
    (h : times.Pairwise fun earlier later ↦ earlier + interval ≤ later)
    (hfirst : times[0]? = some first) (htime : times[i]? = some time) :
    first + i * interval ≤ time := by
  induction i generalizing time with
  | zero =>
    rw [hfirst] at htime
    obtain rfl := Option.some.inj htime
    simp
  | succ i ih =>
    obtain ⟨hi, rfl⟩ := List.getElem?_eq_some_iff.mp htime
    have hbefore : first + i * interval ≤ times[i] :=
      ih (List.getElem?_eq_getElem (Nat.lt_of_succ_lt hi))
    have hnext : times[i] + interval ≤ times[i + 1] :=
      List.pairwise_iff_getElem.mp h i (i + 1) _ hi (Nat.lt_succ_self i)
    rw [Nat.succ_mul]
    omega

theorem Pool.Spaced.pairwise_calls (h : p.Spaced policy since) :
    (p.calls.map Call.time).Pairwise fun earlier later ↦ earlier + policy.minInterval ≤ later := by
  obtain ⟨readings, _, hslots⟩ := h.reserved
  -- the moments are given up to their order, and so is how they lie to each other
  have happart : p.moments.Pairwise fun a b ↦
      a + policy.minInterval ≤ b ∨ b + policy.minInterval ≤ a := by
    refine (hslots.pairwise_iff fun {a b} hab ↦ hab.symm).mpr ?_
    exact (Limiter.pairwise_slots { interval := policy.minInterval } readings).imp Or.inl
  have hcalls := happart.sublist
    ((List.sublist_append_left _ _).trans (List.sublist_append_left _ _))
  refine (h.calls_sorted.and hcalls).imp fun {a b} hab ↦ ?_
  omega

theorem Pool.Spaced.add_mul_le (h : p.Spaced policy since) {first call : Call} {i : Nat}
    (hfirst : p.calls[0]? = some first) (hcall : p.calls[i]? = some call) :
    first.time + i * policy.minInterval ≤ call.time :=
  add_mul_le_of_pairwise h.pairwise_calls (by simp [hfirst]) (by simp [hcall])

theorem Pool.Spaced.elapsed (h : p.Spaced policy since) {reads : Nat}
    (hreads : reads ≤ p.calls.length) : since + (reads - 1) * policy.minInterval ≤ p.now := by
  by_cases hnone : reads = 0
  · simpa [hnone] using h.since_le
  · have hlast : reads - 1 < p.calls.length := by omega
    have hfirst : 0 < p.calls.length := by omega
    have hspan := h.add_mul_le (List.getElem?_eq_getElem hfirst) (List.getElem?_eq_getElem hlast)
    have hsince := (h.calls_time _ (List.getElem_mem hfirst)).1
    have hend := (h.calls_time _ (List.getElem_mem hlast)).2
    omega

end Moments

section Steps

variable {R : Type} [Repository R] {policy : Policy} {files : List DiscoveredFile} {since : Nat}
  {p q : Pool R} {w : Worker}

/-- A call is made at the moment that the worker had reserved. -/
theorem Pool.Spaced.called (h : (p.holding w).Spaced policy since) (hstage : w.stage = .read) :
    (p.called w).Spaced policy since ∧
      (p.called w).finished.length < (p.called w).calls.length := by
  have hmoments : (p.called w).moments.Perm (p.holding w).moments := by
    refine List.Perm.trans ?_ (Pool.moments_ready p [] p.ready w).symm
    simp only [Worker.moment?, hstage, Option.toList_some]
    unfold Pool.moments Pool.called
    grind
  have hlength : (p.called w).finished.length < (p.called w).calls.length := by
    have hbefore : p.finished.length ≤ p.calls.length := h.finished_le
    simpa [Pool.called] using Nat.lt_succ_of_le hbefore
  obtain ⟨readings, hafter, hslots⟩ := h.reserved
  refine ⟨⟨⟨readings, hafter, hmoments.trans hslots⟩, h.fresh, ?_, ?_, h.since_le,
    Nat.le_of_lt hlength⟩, hlength⟩
  · change ((p.calls ++ [_]).map Call.time).Pairwise _
    rw [List.map_append, List.pairwise_append]
    refine ⟨h.calls_sorted, List.pairwise_singleton _ _, fun time htime last hlast ↦ ?_⟩
    obtain ⟨call, hcall, rfl⟩ := List.mem_map.mp htime
    obtain rfl := List.mem_singleton.mp hlast
    exact (h.calls_time call hcall).2
  · intro call hcall
    obtain hcall | hcall := List.mem_append.mp hcall
    · exact h.calls_time call hcall
    · obtain rfl := List.mem_singleton.mp hcall
      exact ⟨h.since_le, Nat.le_refl _⟩

/-- Whatever comes of a read, no moment is reserved or given up: a file that is taken up and a
further attempt both start with a reservation. -/
theorem Pool.Spaced.read (h : (p.holding w).Spaced policy since) (hstage : w.stage = .read) :
    (p.read policy w).Spaced policy since := by
  obtain ⟨hcalled, hlength⟩ := h.called hstage
  obtain ⟨_, heq⟩ | ⟨_, heq | ⟨due, _, heq⟩⟩ := Pool.read_cases policy p w
  · rw [heq]
    refine hcalled.of_moments ?_ rfl (fun v hv ↦ hcalled.fresh v (List.mem_of_mem_drop hv)) rfl
      (Nat.le_refl _) (by simpa [Pool.finish] using Nat.succ_le_of_lt hlength)
    have hnone : (p.waiting.take 1).filterMap (Worker.moment? p.now) = [] := by
      refine List.filterMap_eq_nil_iff.mpr fun v hv ↦ ?_
      rw [Worker.moment?, h.fresh v (List.mem_of_mem_take hv)]
    simp [Pool.moments, Pool.finish, Pool.called, hnone]
  · rw [heq]
    refine hcalled.of_moments ?_ rfl hcalled.fresh rfl (Nat.le_refl _) (Nat.le_of_lt hlength)
    exact Pool.moments_ready (p.called w) [] p.ready w.again
  · rw [heq]
    refine hcalled.of_moments ?_ rfl hcalled.fresh rfl (Nat.le_refl _) (Nat.le_of_lt hlength)
    simp [Pool.moments, Pool.called, Worker.moment?, Worker.again]

theorem Pool.Spaced.step (h : p.Spaced policy since) (hahead : p.Ahead)
    (hstep : Pool.Step policy .virtual p q) : q.Spaced policy since := by
  cases hstep with
  | @reserve before after w reading hready hstage hreading =>
    obtain rfl : reading = p.now := hreading
    have htaken : ({ p with ready := before ++ after } : Pool R).Spaced policy since := by
      refine h.of_moments ?_ rfl h.fresh rfl (Nat.le_refl _) h.finished_le
      have hmoments := Pool.moments_ready p before after w
      rw [← hready] at hmoments
      simp only [Worker.moment?, hstage, Option.toList_none, List.nil_append] at hmoments
      exact hmoments.symm
    exact htaken.reserve w
  | @read before after w hready hstage =>
    have hheld :
        (({ p with ready := before ++ after } : Pool R).holding w).Spaced policy since := by
      refine h.of_moments ?_ rfl h.fresh rfl (Nat.le_refl _) h.finished_le
      have hmoments := Pool.moments_ready p before after w
      rw [← hready] at hmoments
      exact (Pool.moments_ready _ [] (before ++ after) w).trans hmoments.symm
    exact hheld.read hstage
  | @wake before after t htimers hdue =>
    -- on the virtual clock a worker is woken at the very moment it waits for
    have hnow : t.due = p.now := Nat.le_antisymm hdue (hahead t (by simp [htimers]))
    refine h.of_moments ?_ rfl h.fresh rfl (Nat.le_refl _) h.finished_le
    have hmoments := Pool.moments_timers p before after t
    rw [← htimers, hnow] at hmoments
    refine List.Perm.trans ?_ hmoments.symm
    simpa using Pool.moments_ready { p with timers := before ++ after } p.ready [] t.worker

theorem Pool.Spaced.schedule {n : Nat} (h : p.Spaced policy since) (hahead : p.Ahead)
    (hschedule : p.Schedule policy .virtual n q) : q.Spaced policy since := by
  induction hschedule with
  | start => exact h
  | step hbefore hstep ih => exact ih.step (hahead.schedule hbefore) hstep
  | pass _ hpasses ih =>
    -- time passes only when no worker is ready to read
    refine ih.of_moments ?_ rfl ih.fresh rfl hpasses.2.2 ih.finished_le
    simp [Pool.moments, hpasses.1]

/-- A limiter gives out moments that are an interval apart and not before the readings of their own
callers, whatever the readings and the order of the callers are. Hence, on the virtual clock, the
read after `i` others starts at least `i` intervals after the first read, and reading `k` files
takes `k - 1` intervals at least, whatever the order and the number of the workers. The reading
itself follows such a schedule to its end. -/
theorem reads_spaced (policy : Policy) (files : List DiscoveredFile) (repo : R) (now : Nat) :
    (∀ (l : Limiter) (readings : List Nat),
      (l.slots readings).Pairwise (fun earlier later ↦ earlier + l.interval ≤ later) ∧
      List.Forall₂ (· ≤ ·) readings (l.slots readings)) ∧
    (∀ n p, (Pool.start policy files repo now).Schedule policy .virtual n p →
      (∀ first call i, p.calls[0]? = some first → p.calls[i]? = some call →
        first.time + i * policy.minInterval ≤ call.time) ∧
      (p.workers = [] → now + (files.length - 1) * policy.minInterval ≤ p.now)) ∧
    ∃ n, (Pool.start policy files repo now).Schedule policy .virtual n
        (readAll policy (fun _ ↦ false) files repo now) ∧
      (readAll policy (fun _ ↦ false) files repo now).workers = [] := by
  refine ⟨fun l readings ↦ ⟨l.pairwise_slots readings, l.forall₂_le_slots readings⟩,
    fun n p hschedule ↦ ?_, readAll_schedule_ends policy files repo now⟩
  have hspaced := (Pool.Spaced.start policy files repo now).schedule
    (Pool.Ahead.start policy files repo now) hschedule
  refine ⟨fun first call i hfirst hcall ↦ hspaced.add_mul_le hfirst hcall, fun hworkers ↦ ?_⟩
  -- every file has an outcome, and so was read at least once
  have haccounts := ((Pool.Accounts.start policy files repo now).schedule hschedule).1
  have hlength := haccounts.length_eq
  rw [hworkers, List.length_nil, Nat.zero_add] at hlength
  exact hspaced.elapsed (hlength ▸ hspaced.finished_le)

end Steps

end SuiteMigration.Reading
