import Mathlib.Order.Basic
import SuiteMigration.Proofs.Run.Completion
import SuiteMigration.Repository.Faults

/-!
The reports of a run come in the order of its phases. A report made inside of a phase may be ahead
of the status of the session, which is only brought up to date where the phase ends; so that the
last report of a failed run is not behind an earlier one, a failure may stop a run only where no
report is ahead. `Leads` carries this through the phases: where a step gives a value, the reports
have come to a point, and where it fails, the status has.
-/

set_option autoImplicit false
set_option relaxedAutoImplicit false

namespace SuiteMigration.Run

open SuiteMigration.Repository

variable {R α β : Type}

/-- The place of a phase in a run. A run has one of two ends. -/
def Phase.rank : Phase → Nat
  | .notStarted => 0
  | .validating => 1
  | .analyzing => 2
  | .transforming => 3
  | .generating => 4
  | .committing => 5
  | .completed | .failed => 6

theorem Phase.isTerminal_iff {phase : Phase} : phase.isTerminal = true ↔ 6 ≤ phase.rank := by
  cases phase <;> decide

/-- How far a run has come with a report. -/
def Event.point (e : Event) : Nat × Nat :=
  (e.phase.rank, e.percent)

def Status.point (s : Status) : Nat × Nat :=
  (s.phase.rank, s.percent)

/-! ### Percentages inside of a phase -/

theorem scaled_zero (start span total : Nat) : scaled start span 0 total = start := by
  unfold scaled
  split
  · rfl
  · rw [Nat.mul_zero, Nat.zero_div, Nat.zero_min, Nat.add_zero]

theorem scaled_mono (start span total : Nat) {done later : Nat} (h : done ≤ later) :
    scaled start span done total ≤ scaled start span later total := by
  unfold scaled
  split
  · exact Nat.le_refl _
  · have hdiv : span * done / total ≤ span * later / total :=
      Nat.div_le_div_right (Nat.mul_le_mul_left span h)
    omega

theorem scaled_le (start span done total : Nat) : scaled start span done total ≤ start + span := by
  unfold scaled
  split <;> omega

/-! ### Reports in order -/

/-- The reports so far are in order, and none is beyond a point. -/
structure Reported (p : Nat × Nat) (s : Session R) : Prop where
  inOrder : s.events.Pairwise fun e later ↦ e.point ≤ later.point
  bounded : ∀ e ∈ s.events, e.point ≤ p
  started : ∀ e ∈ s.events, 1 ≤ e.phase.rank

/-- The last report is that of the status. -/
def Current (p : Nat × Nat) (s : Session R) : Prop :=
  Reported p s ∧ s.status.point = p

/-- A failure may end the run: no report is ahead of the status, and no report has ended the run. -/
def Stoppable (s : Session R) : Prop :=
  Reported s.status.point s ∧ s.status.point ≤ (5, 100)

section Reported

variable {p q : Nat × Nat} {s t : Session R}

theorem Reported.of_events_eq (h : Reported p s) (hevents : t.events = s.events) :
    Reported p t := by
  constructor
  · rw [hevents]
    exact h.inOrder
  · rw [hevents]
    exact h.bounded
  · rw [hevents]
    exact h.started

theorem Reported.mono (h : Reported p s) (hpq : p ≤ q) : Reported q s where
  inOrder := h.inOrder
  bounded e he := le_trans (h.bounded e he) hpq
  started := h.started

theorem Reported.report {event : Event} (h : Reported p s) (hlater : p ≤ event.point)
    (hstarted : 1 ≤ event.phase.rank) (hevents : t.events = s.events ++ [event]) :
    Reported event.point t := by
  constructor
  · rw [hevents, List.pairwise_append]
    refine ⟨h.inOrder, List.pairwise_singleton _ _, fun e he next hnext ↦ ?_⟩
    rw [List.mem_singleton.mp hnext]
    exact le_trans (h.bounded e he) hlater
  · rw [hevents]
    exact List.forall_mem_append.mpr ⟨fun e he ↦ le_trans (h.bounded e he) hlater,
      List.forall_mem_singleton.mpr (le_refl _)⟩
  · rw [hevents]
    exact List.forall_mem_append.mpr ⟨h.started, List.forall_mem_singleton.mpr hstarted⟩

theorem Current.of_eq (h : Current p s) (hevents : t.events = s.events)
    (hstatus : t.status.point = s.status.point) : Current p t :=
  ⟨h.1.of_events_eq hevents, hstatus.trans h.2⟩

theorem Current.stoppable (h : Current p s) (hp : p ≤ (5, 100)) : Stoppable s := by
  obtain ⟨hreported, rfl⟩ := h
  exact ⟨hreported, hp⟩

end Reported

/-! ### Steps -/

/-- The end of a step: with a value it has come to `Q`, and with a failure to where a failure may
end the run. Nothing is said of a crash. -/
def Arrives (Q : Session R → Prop) : Except Stop α × Session R → Prop
  | (.ok _, t) => Q t
  | (.error (.failure _), t) => Stoppable t
  | (.error (.crash _), _) => True

/-- A step leads from `P` to `Q`. -/
def Leads (P : Session R → Prop) (m : Step R α) (Q : Session R → Prop) : Prop :=
  ∀ s, P s → Arrives Q (exec m s)

section Leads

variable {P Q S : Session R → Prop} {m : Step R α}

theorem Leads.bind {f : α → Step R β} (hm : Leads P m Q) (hf : ∀ a, Leads Q (f a) S) :
    Leads P (m >>= f) S := by
  intro s hs
  have hfirst := hm s hs
  rw [exec_bind]
  rcases hexec : exec m s with ⟨stop | a, next⟩
  · rw [hexec] at hfirst
    cases stop <;> exact hfirst
  · rw [hexec] at hfirst
    exact hf a next hfirst

theorem Leads.weaken {P' Q' : Session R → Prop} (h : Leads P m Q) (hP : ∀ s, P' s → P s)
    (hQ : ∀ s, Q s → Q' s) : Leads P' m Q' := by
  intro s hs
  have hstep := h s (hP s hs)
  rcases hexec : exec m s with ⟨(f | message) | a, next⟩
  · rwa [hexec] at hstep
  · trivial
  · rw [hexec] at hstep
    exact hQ next hstep

theorem Leads.pure (a : α) : Leads P (pure a : Step R α) P :=
  fun _ hs ↦ hs

theorem Leads.fail {f : Failure} (h : ∀ s, P s → Stoppable s) :
    Leads P (throw (.failure f) : Step R α) Q :=
  h

theorem Leads.crash (message : String) : Leads P (throw (.crash message) : Step R α) Q :=
  fun _ _ ↦ trivial

theorem Leads.modify {f : Session R → Session R} (h : ∀ s, P s → Q (f s)) :
    Leads P (modify f : Step R PUnit) Q :=
  h

/-- The session that a step reads first may decide what it does. -/
theorem Leads.get_bind {f : Session R → Step R β} (hf : ∀ s, P s → Arrives Q (exec (f s) s)) :
    Leads P (get >>= f) Q :=
  hf

theorem Leads.set_bind {t : Session R} {f : PUnit → Step R β} {s : Session R} (ht : P t)
    (hf : Leads P (f ⟨⟩) Q) : Arrives Q (exec (set t >>= f) s) :=
  hf t ht

theorem Leads.of_unfailing (hm : Unfailing m) (h : Along (Carries P) m) : Leads P m P := by
  intro s hs
  obtain ⟨a, next, hyields⟩ := hm s
  rw [hyields]
  exact h.yields hyields hs

end Leads

section Points

variable {p : Nat × Nat}

theorem notify_leads (observer : Observer) (event : Event) (hlater : p ≤ event.point)
    (hstarted : 1 ≤ event.phase.rank) :
    Leads (Reported p) (notify observer event : Step R Unit) (Reported event.point) := by
  intro s hs
  rw [exec_notify]
  cases observer s.events.length event with
  | some message => trivial
  | none => exact hs.report hlater hstarted rfl

theorem announce_arrives {Q : Session R → Prop} {observer : Observer} {message : String}
    {phase : Phase} {percent : Nat} {s : Session R}
    (h : Q { s with
      status := s.status.enter phase percent
      events := s.events ++ [⟨message, phase, min percent 100⟩] }) :
    Arrives Q (exec (announce observer message phase percent) s) := by
  rw [exec_announce, exec_notify]
  split
  · trivial
  · exact h

/-- A phase is announced with its status. -/
theorem announce_leads (observer : Observer) (message : String) (phase : Phase) (percent : Nat)
    (hlater : p ≤ (phase.rank, percent)) (hstarted : 1 ≤ phase.rank) (hpercent : percent ≤ 100) :
    Leads (Reported p) (announce observer message phase percent : Step R Unit)
      (Current (phase.rank, percent)) := by
  intro s hs
  let event : Event := ⟨message, phase, percent⟩
  have hreported : Reported event.point { s with
      status := s.status.enter phase percent
      events := s.events ++ [event] } := hs.report hlater hstarted rfl
  refine announce_arrives ?_
  rw [Nat.min_eq_left hpercent]
  refine ⟨hreported, ?_⟩
  rw [Status.point, Status.enter, Nat.min_eq_left hpercent]

/-- Reports that are numbered from one on, inside of a phase. -/
theorem reports_leads (observer : Observer) (event : α → Event) (phase : Phase)
    (start span total : Nat) (hstarted : 1 ≤ phase.rank) (list : List α) (done : Nat)
    (hpoint : ∀ i a, list[i]? = some a →
      (event a).phase = phase ∧ (event a).percent = scaled start span (done + i + 1) total) :
    Leads (Reported (phase.rank, scaled start span done total))
      (list.forM fun a ↦ notify observer (event a) : Step R PUnit)
      (Reported (phase.rank, start + span)) := by
  induction list generalizing done with
  | nil =>
    exact (Leads.pure _).weaken (fun _ hs ↦ hs) fun _ hs ↦
      hs.mono ⟨Nat.le_refl _, scaled_le start span done total⟩
  | cons a rest ih =>
    obtain ⟨hphase, hpercent⟩ := hpoint 0 a rfl
    have hevent : (event a).point = (phase.rank, scaled start span (done + 1) total) := by
      rw [Event.point, hphase, hpercent]
    have hlater : (phase.rank, scaled start span done total) ≤ (event a).point := by
      rw [hevent]
      exact ⟨Nat.le_refl _, scaled_mono start span total (Nat.le_succ done)⟩
    have hfirst := notify_leads (R := R) observer (event a) hlater (hphase ▸ hstarted)
    rw [hevent] at hfirst
    refine hfirst.bind fun _ ↦ ih (done + 1) fun i b hi ↦ ?_
    rw [Nat.add_right_comm done 1 i]
    exact hpoint (i + 1) b hi

theorem access_leads (operation : R → Except Error α × R) :
    Leads (Reported p) (access operation) (Reported p) :=
  fun _ hs ↦ hs.of_events_eq rfl

/-- An error of the repository ends the run right after a report. -/
theorem accessOr_leads (failure : Error → Failure) (operation : R → Except Error α × R)
    (hp : p ≤ (5, 100)) : Leads (Current p) (accessOr failure operation) (Current p) := by
  intro s hs
  have hnext : Current p { s with repo := (operation s.repo).2 } := hs.of_eq rfl rfl
  rw [exec_accessOr]
  cases (operation s.repo).1 with
  | ok a => exact hnext
  | error e => exact hnext.stoppable hp

theorem count_leads (update : Summary → Summary) :
    Leads (Reported p) (count update : Step R Unit) (Reported p) :=
  .modify fun _ hs ↦ hs.of_events_eq rfl

theorem resolve_leads (path : String) (result : FileResult) :
    Leads (Reported p) (resolve path result : Step R Unit) (Reported p) :=
  .modify fun _ hs ↦ hs.of_events_eq rfl

theorem enter_leads (phase : Phase) (percent : Nat) :
    Leads (Reported p) (enter phase percent : Step R Unit) (Reported p) :=
  .modify fun _ hs ↦ hs.of_events_eq rfl

/-! ### Steps without a report -/

theorem collectRead_leads (outcomes : List Reading.Outcome) :
    Leads (Reported p) (collectRead outcomes : Step R (List (DiscoveredFile × String)))
      (Reported p) := by
  induction outcomes with
  | nil => exact .pure _
  | cons outcome rest ih =>
    unfold collectRead
    split
    · exact ih.bind fun _ ↦ .pure _
    · exact (count_leads _).bind fun _ ↦ (resolve_leads _ _).bind fun _ ↦ ih

theorem record_leads (t : TransformedFile) :
    Leads (Reported p) (record t : Step R (Option Commit.Item)) (Reported p) := by
  refine (count_leads _).bind fun _ ↦ ?_
  split
  · exact (resolve_leads _ _).bind fun _ ↦ .pure _
  · exact .pure _

theorem carries_reported_resolve (path : String) (result : FileResult) :
    Along (Carries (Reported p)) (resolve path result : Step R Unit) :=
  Along.modify fun _ hs ↦ hs.of_events_eq rfl

theorem settleDry_leads (items : List Commit.Item) :
    Leads (Reported p) (settleDry items : Step R Unit) (Reported p) :=
  .of_unfailing (settleDry_unfailing items) (settleDry_along carries_reported_resolve items)

theorem settleOutcomes_leads (outcomes : List Commit.Outcome) :
    Leads (Reported p) (settleOutcomes outcomes : Step R Unit) (Reported p) :=
  .of_unfailing (settleOutcomes_unfailing outcomes)
    (settleOutcomes_along carries_reported_resolve (Along.modify fun _ hs ↦ hs.of_events_eq rfl)
      (Along.modify fun _ hs ↦ hs.of_events_eq rfl) outcomes)

theorem migrateFile_leads (engine : Engine) (file : DiscoveredFile) (content : String) :
    Leads (Reported p) (migrateFile engine file content : Step R TransformedFile) (Reported p) :=
  .get_bind fun _ hs ↦ Leads.set_bind (hs.of_events_eq rfl) (.pure _)

variable [Repository R]

theorem readBack_leads (path branch : String) :
    Leads (Reported p) (readBack path branch : Step R (Except Error String)) (Reported p) :=
  (Leads.modify fun _ hs ↦ hs.of_events_eq rfl).bind fun _ ↦ access_leads _

theorem mergeExisting_leads (engine : Engine) (request : Request) (branch : String)
    (fresh : TransformedFile) :
    Leads (Reported p) (mergeExisting engine request branch fresh : Step R TransformedFile)
      (Reported p) := by
  refine (readBack_leads _ _).bind fun result ↦ ?_
  split
  · exact .pure _
  · dsimp only
    split <;> exact .pure _

theorem sourceIndex_leads (engine : Engine) (request : Request) :
    Leads (Reported p) (sourceIndex engine request : Step R SourceIndex) (Reported p) := by
  refine (access_leads _).bind fun result ↦ ?_
  split <;> exact .pure _

/-- Generating a target again does not fail; it may crash. -/
theorem regenerate_leads (engine : Engine) (source : DiscoveredFile) :
    Leads (Reported p) (regenerate engine source : Step R (Option String)) (Reported p) := by
  refine (readBack_leads _ _).bind fun result ↦ ?_
  split
  · exact .pure _
  · split
    · exact .pure _
    · split
      · exact .crash _
      · exact .pure _

theorem transformFile_leads (engine : Engine) (request : Request) (branch : String)
    (sources : SourceIndex) (file : DiscoveredFile) (content : String) :
    Leads (Reported p)
      (transformFile engine request branch sources file content : Step R TransformedFile)
      (Reported p) := by
  unfold transformFile
  split
  · dsimp only
    split
    · exact (regenerate_leads engine _).bind fun _ ↦ .pure _
    · exact (Leads.pure _).bind fun _ ↦ .pure _
  · exact migrateFile_leads engine file content
  · refine (migrateFile_leads engine file content).bind fun fresh ↦ ?_
    split
    · exact mergeExisting_leads engine request branch fresh
    · exact .pure fresh

end Points

/-! ### Phases -/

theorem Leads.of_current {p : Nat × Nat} {Q : Session R → Prop} {m : Step R α}
    (h : Leads (Reported p) m Q) : Leads (Current p) m Q :=
  fun s hs ↦ h s hs.1

variable [Repository R]

theorem validateAccess_leads (observer : Observer) (request : Request) :
    Leads (Reported (0, 0)) (validateAccess observer request : Step R (List String))
      (Current (1, 5)) := by
  refine (announce_leads observer _ .validating 5 (by decide) (by decide) (by decide)).bind
    fun _ ↦ (accessOr_leads _ _ (by decide)).bind fun branches ↦ ?_
  split
  · exact .pure _
  · exact .fail fun _ hs ↦ hs.stoppable (by decide)

theorem discoverFiles_leads (observer : Observer) (request : Request) :
    Leads (Current (1, 5)) (discoverFiles observer request : Step R (List DiscoveredFile))
      (Current (2, 15)) := by
  refine (announce_leads observer _ .analyzing 15 (by decide) (by decide)
    (by decide)).of_current.bind fun _ ↦ (accessOr_leads _ _ (by decide)).bind fun files ↦ ?_
  have hcount (update : Summary → Summary) :
      Leads (Current (2, 15)) (count update : Step R Unit) (Current (2, 15)) :=
    .modify fun _ hs ↦ hs.of_eq rfl rfl
  exact (hcount _).bind fun _ ↦
    (Leads.modify (Q := Current (2, 15)) fun _ hs ↦ hs.of_eq rfl rfl).bind fun _ ↦ .pure _

/-- The branch for the output may be refused. -/
theorem prepareBranch_leads (settings : Settings) (request : Request) (branches : List String) :
    Leads (Current (2, 15)) (prepareBranch settings request branches : Step R String)
      (Current (2, 15)) := by
  have hname (branch : String) : Leads (Current (2, 15)) (do
      modify fun s ↦ { s with status := { s.status with branch := some branch } }
      return branch : Step R String) (Current (2, 15)) :=
    (Leads.modify (Q := Current (2, 15)) fun _ hs ↦ hs.of_eq rfl rfl).bind fun _ ↦ .pure _
  unfold prepareBranch
  extract_lets branch
  split
  · exact (accessOr_leads _ _ (by decide)).bind fun _ ↦ hname branch
  · exact hname branch

theorem readPool_leads (observer : Observer) (policy : Reading.Policy)
    (files : List DiscoveredFile) :
    Leads (Reported (2, 20)) (readPool observer policy files : Step R (List Reading.Outcome))
      (Reported (2, 40)) := by
  let event (i : Nat) : Event := readEvent files.length (i + 1)
  have hreports (n : Nat) : Leads (Reported (2, 20))
      ((List.range n).forM fun i ↦ notify observer (event i) : Step R PUnit)
      (Reported (2, 40)) := by
    have hpoint (i a : Nat) (hi : (List.range n)[i]? = some a) :
        (event a).phase = .analyzing ∧
          (event a).percent = scaled 20 20 (0 + i + 1) files.length := by
      obtain ⟨hlt, rfl⟩ := List.getElem?_eq_some_iff.mp hi
      rw [List.getElem_range, Nat.zero_add]
      exact ⟨rfl, rfl⟩
    have hall := reports_leads (R := R) observer event .analyzing 20 20 files.length (by decide)
      (List.range n) 0 hpoint
    rwa [scaled_zero] at hall
  exact .get_bind fun s hs ↦
    Leads.set_bind (hs.of_events_eq rfl) ((hreports _).bind fun _ ↦ .pure _)

theorem readFiles_leads (observer : Observer) (policy : Reading.Policy)
    (files : List DiscoveredFile) :
    Leads (Current (2, 15))
      (readFiles observer policy files : Step R (List (DiscoveredFile × String)))
      (Reported (2, 40)) :=
  (announce_leads observer _ .analyzing 20 (by decide) (by decide) (by decide)).of_current.bind
    fun _ ↦ (readPool_leads observer policy files).of_current.bind fun outcomes ↦
      (enter_leads _ _).bind fun _ ↦ collectRead_leads outcomes

theorem transformFrom_leads (observer : Observer) (engine : Engine) (request : Request)
    (branch : String) (sources : SourceIndex) (total done : Nat)
    (loaded : List (DiscoveredFile × String)) :
    Leads (Reported (3, scaled 40 30 done total))
      (transformFrom observer engine request branch sources total done loaded :
        Step R (List Commit.Item)) (Reported (3, 70)) := by
  induction loaded generalizing done with
  | nil =>
    exact (Leads.pure _).weaken (fun _ hs ↦ hs) fun _ hs ↦
      hs.mono ⟨Nat.le_refl _, scaled_le 40 30 done total⟩
  | cons pair rest ih =>
    let event : Event :=
      ⟨"Transformed " ++ pair.1.path, .transforming, scaled 40 30 (done + 1) total⟩
    have hlater : (3, scaled 40 30 done total) ≤ event.point :=
      ⟨Nat.le_refl 3, scaled_mono 40 30 total (Nat.le_succ done)⟩
    have hstarted : 1 ≤ event.phase.rank := Nat.le_add_left 1 2
    exact (transformFile_leads _ _ _ _ _ _).bind fun t ↦ (record_leads t).bind fun _ ↦
      (notify_leads observer event hlater hstarted).bind fun _ ↦ (ih (done + 1)).bind fun _ ↦
        .pure _

theorem transformAll_leads (observer : Observer) (engine : Engine) (request : Request)
    (branch : String) (loaded : List (DiscoveredFile × String)) :
    Leads (Reported (2, 40))
      (transformAll observer engine request branch loaded : Step R (List Commit.Item))
      (Reported (3, 70)) := by
  have hrest (index : SourceIndex) : Leads (Reported (3, 40)) (do
      let items ← transformFrom observer engine request branch index loaded.length 0 loaded
      enter .transforming 70
      return items : Step R (List Commit.Item)) (Reported (3, 70)) := by
    have hfrom := transformFrom_leads (R := R) observer engine request branch index loaded.length 0
      loaded
    rw [scaled_zero] at hfrom
    exact hfrom.bind fun _ ↦ (enter_leads _ _).bind fun _ ↦ .pure _
  refine (announce_leads observer _ .transforming 40 (by decide) (by decide) (by decide)).bind
    fun _ ↦ Leads.of_current ?_
  dsimp only
  split
  · exact (sourceIndex_leads engine request).bind hrest
  · exact (Leads.pure _).bind hrest

omit [Repository R] in
theorem skeletonItems_leads (observer : Observer) (engine : Engine) (request : Request)
    (items : List Commit.Item) :
    Leads (Reported (3, 70))
      (skeletonItems observer engine request items : Step R (List Commit.Item))
      (Reported (4, 75)) := by
  unfold skeletonItems
  split
  · exact (Leads.pure _).weaken (fun _ hs ↦ hs) fun _ hs ↦ hs.mono (by decide)
  · refine (announce_leads observer _ .generating 75 (by decide) (by decide) (by decide)).bind
      fun _ ↦ ?_
    split
    · exact .fail fun _ hs ↦ hs.stoppable (by decide)
    · exact ((count_leads _).bind fun _ ↦ .pure _).of_current

theorem writeBatches_leads (observer : Observer) (policy : Commit.Policy) (branch : String)
    (batches : List (List Commit.Item)) :
    Leads (Reported (5, 80))
      (writeBatches observer policy branch batches : Step R (List Commit.Outcome))
      (Reported (5, 95)) := by
  let event (outcome : Commit.Outcome) : Event := batchEvent batches.length outcome.index
  have hreports (outcomes : List Commit.Outcome)
      (hindex : ∀ i outcome, outcomes[i]? = some outcome → outcome.index = 0 + i) :
      Leads (Reported (5, 80)) (outcomes.forM fun outcome ↦ notify observer (event outcome) :
        Step R PUnit) (Reported (5, 95)) := by
    have hpoint (i : Nat) (outcome : Commit.Outcome) (hi : outcomes[i]? = some outcome) :
        (event outcome).phase = .committing ∧
          (event outcome).percent = scaled 80 15 (0 + i + 1) batches.length := by
      dsimp only [event]
      rw [hindex i outcome hi]
      exact ⟨rfl, rfl⟩
    have hall := reports_leads (R := R) observer event .committing 80 15 batches.length (by decide)
      outcomes 0 hpoint
    rwa [scaled_zero] at hall
  refine .get_bind fun s hs ↦ Leads.set_bind (hs.of_events_eq rfl)
    ((hreports _ ?_).bind fun _ ↦ .pure _)
  exact Commit.commitFrom_index _ _ _ _ _ _ _ _

theorem commitFiles_leads (observer : Observer) (policy : Commit.Policy) (request : Request)
    (branch : String) (items skeleton : List Commit.Item) :
    Leads (Reported (4, 75))
      (commitFiles observer policy request branch items skeleton : Step R Unit)
      (Reported (5, 95)) := by
  have hmono (s : Session R) (hs : Reported (5, 80) s) : Reported (5, 95) s := hs.mono (by decide)
  refine (announce_leads observer _ .committing 80 (by decide) (by decide) (by decide)).bind
    fun _ ↦ Leads.of_current ?_
  dsimp only
  split
  · exact ((settleDry_leads items).bind fun _ ↦ enter_leads _ _).weaken (fun _ hs ↦ hs) hmono
  · split
    · exact (count_leads _).bind fun _ ↦ (writeBatches_leads _ _ _ _).bind fun outcomes ↦
        (settleOutcomes_leads outcomes).bind fun _ ↦ enter_leads _ _
    · exact (enter_leads _ _).weaken (fun _ hs ↦ hs) hmono

theorem requestPull_leads (observer : Observer) (request : Request) (branch : String) :
    Leads (Reported (5, 95)) (requestPull observer request branch : Step R Unit)
      (Reported (5, 97)) := by
  refine .get_bind fun s hs ↦ ?_
  dsimp only
  split
  · have hannounce := announce_leads (R := R) (p := (5, 95)) observer "Opening pull request"
      .committing 97 (by decide) (by decide) (by decide)
    refine hannounce.bind (fun _ ↦ (accessOr_leads _ _ (by decide)).bind fun url ↦ ?_) s hs
    exact Leads.of_current (.modify fun _ hs ↦ hs.of_events_eq rfl)
  · exact hs.mono (by decide)

/-! ### A whole run -/

/-- The run is completed, and no report has said otherwise. -/
structure Concluded (s : Session R) : Prop where
  current : Current (6, 100) s
  completed : s.status.phase = .completed
  only_completed : ∀ e ∈ s.events, e.phase.isTerminal = true → e.phase = .completed

omit [Repository R] in
/-- Before the last report no report is of an end. -/
theorem conclude_leads {p : Nat × Nat} (hp : p ≤ (5, 100)) (observer : Observer)
    (message : String) :
    Leads (Reported p) (announce observer message .completed 100 : Step R Unit) Concluded := by
  intro s hs
  let event : Event := ⟨message, .completed, 100⟩
  have hlater : p ≤ event.point := le_trans hp ⟨Nat.le_succ 5, Nat.le_refl 100⟩
  have hstarted : 1 ≤ event.phase.rank := Nat.le_add_left 1 5
  refine announce_arrives ⟨⟨hs.report hlater hstarted rfl, rfl⟩, rfl,
    List.forall_mem_append.mpr ⟨fun e he hend ↦ ?_, List.forall_mem_singleton.mpr fun _ ↦ rfl⟩⟩
  have hrank : e.phase.rank ≤ 5 := (le_trans (hs.bounded e he) hp).1
  have hlast := Phase.isTerminal_iff.mp hend
  omega

theorem execute_leads (observer : Observer) (settings : Settings) (engine : Engine)
    (request : Request) :
    Leads (Reported (0, 0)) (execute observer settings engine request : Step R Unit)
      Concluded := by
  refine (validateAccess_leads observer request).bind fun branches ↦
    (discoverFiles_leads observer request).bind fun files ↦ ?_
  split
  · exact (conclude_leads (by decide) observer _).of_current
  · exact (prepareBranch_leads settings request branches).bind fun branch ↦
      (readFiles_leads _ _ _).bind fun loaded ↦ (transformAll_leads _ _ _ _ _).bind fun items ↦
        (skeletonItems_leads _ _ _ _).bind fun skeleton ↦ (commitFiles_leads _ _ _ _ _ _).bind
          fun _ ↦ (requestPull_leads _ _ _).bind fun _ ↦ conclude_leads (by decide) observer _

omit [Repository R] in
/-- A session is closed at a point that no report is ahead of, with an end that no report has
contradicted. -/
theorem close_in_order {p : Nat × Nat} {s : Session R} {failure : Option Failure}
    (hreported : Reported p s) (hlater : p ≤ (s.close failure).status.point)
    (hpercent : (s.close failure).status.percent ≤ 100)
    (hend : (s.close failure).status.phase.isTerminal = true)
    (honly : ∀ e ∈ s.events, e.phase.isTerminal = true →
      e.phase = (s.close failure).status.phase) :
    let closed := s.close failure
    (closed.events.Pairwise fun e later ↦
        e.phase.rank ≤ later.phase.rank ∧ e.percent ≤ later.percent) ∧
      (∀ e ∈ closed.events, e.phase ≠ .notStarted ∧ e.percent ≤ 100) ∧
      (∃! phase : Phase, phase.isTerminal = true ∧ ∃ e ∈ closed.events, e.phase = phase) ∧
      ∃ e, closed.events.getLast? = some e ∧
        e.phase = closed.status.phase ∧ e.percent = closed.status.percent := by
  intro closed
  let event := finalEvent closed.status failure
  have hevents : closed.events = s.events ++ [event] := rfl
  have hstarted : 1 ≤ event.phase.rank := le_trans (by decide) (Phase.isTerminal_iff.mp hend)
  have hclosed : Reported event.point closed := hreported.report hlater hstarted hevents
  have hlast : event ∈ closed.events := by
    rw [hevents]
    exact List.mem_append_right _ (List.mem_singleton_self event)
  refine ⟨hclosed.inOrder, fun e he ↦ ⟨fun hphase ↦ ?_, ?_⟩,
    ⟨event.phase, ⟨hend, event, hlast, rfl⟩, ?_⟩, event, ?_, rfl, rfl⟩
  · have hrank := hclosed.started e he
    rw [hphase] at hrank
    exact absurd hrank (by decide)
  · exact le_trans (hclosed.bounded e he).2 hpercent
  · rintro _ ⟨hterminal, e, he, rfl⟩
    rw [hevents] at he
    obtain he | he := List.mem_append.mp he
    · exact honly e he hterminal
    · rw [List.mem_singleton.mp he]
  · rw [hevents, List.getLast?_concat]

/-- What stopped the phases of a run is its failure. -/
def failure? : Except Stop Unit → Option Failure
  | .ok _ => none
  | .error stop => some stop.toFailure

theorem run_of_exec {observer : Observer} {settings : Settings} {request : Request} {repo : R}
    {outcome : Except Stop Unit} {last : Session R}
    (h : exec (execute observer settings (settings.engine request) request)
      (startSession settings request repo) = (outcome, last)) :
    run observer settings request repo =
      ((last.close (failure? outcome)).response (failure? outcome),
        last.close (failure? outcome)) := by
  have hrun : (execute observer settings (settings.engine request) request).run
      (startSession settings request repo) = (outcome, last) := h
  unfold startSession at hrun
  rw [run, hrun]
  cases outcome <;> rfl

/-- A crash ends the phases of the run. -/
def crashes (observer : Observer) (settings : Settings) (request : Request) (repo : R) : Bool :=
  match (exec (execute observer settings (settings.engine request) request)
    (startSession settings request repo)).1 with
  | .error (.crash _) => true
  | _ => false

/-- In a run without a crash the phases of the reports never go back and their percentages never
decrease nor exceed 100; the reports know one kind of end, and the last one has the phase and the
percentage of the response, which are those of a completed run exactly if there is no failure. -/
theorem reports_in_order (observer : Observer) (settings : Settings) (request : Request) (repo : R)
    (hcrash : crashes observer settings request repo = false) :
    let response := (run observer settings request repo).1
    let reports := (run observer settings request repo).2.events
    (reports.Pairwise fun e later ↦
        e.phase.rank ≤ later.phase.rank ∧ e.percent ≤ later.percent) ∧
      (∀ e ∈ reports, e.phase ≠ .notStarted ∧ e.percent ≤ 100) ∧
      (∃! phase : Phase, phase.isTerminal = true ∧ ∃ e ∈ reports, e.phase = phase) ∧
      (∃ e, reports.getLast? = some e ∧
        e.phase = response.status.phase ∧ e.percent = response.status.percent) ∧
      (response.status.phase = .completed ∧ response.status.percent = 100 ↔
        response.failure = none) := by
  have harrives := execute_leads observer settings (settings.engine request) request
    (startSession settings request repo) ⟨.nil, nofun, nofun⟩
  rcases hexec : exec (execute observer settings (settings.engine request) request)
    (startSession settings request repo) with ⟨(f | message) | u, last⟩
  · rw [hexec] at harrives
    obtain ⟨hreported, hbefore⟩ : Stoppable last := harrives
    rw [run_of_exec hexec]
    have hpercent : min last.status.percent 100 = last.status.percent :=
      Nat.min_eq_left hbefore.2
    have hlater : last.status.point ≤ (last.close (some f)).status.point :=
      ⟨le_trans hbefore.1 (Nat.le_succ 5), le_of_eq hpercent.symm⟩
    have horder := close_in_order hreported hlater (Nat.min_le_right _ _) rfl fun e he hend ↦ by
      have hrank : e.phase.rank ≤ 5 := (le_trans (hreported.bounded e he) hbefore).1
      have hlast := Phase.isTerminal_iff.mp hend
      omega
    exact ⟨horder.1, horder.2.1, horder.2.2.1, horder.2.2.2, iff_of_false (nomatch ·.1) nofun⟩
  · rw [crashes, hexec] at hcrash
    cases hcrash
  · rw [hexec] at harrives
    obtain ⟨⟨hreported, hpoint⟩, hphase, honly⟩ : Concluded last := harrives
    rw [run_of_exec hexec]
    have hlater : (6, 100) ≤ (last.close none).status.point := le_of_eq hpoint.symm
    have hpercent : last.status.percent = 100 := congrArg Prod.snd hpoint
    have horder := close_in_order hreported hlater (le_of_eq hpercent)
      (congrArg Phase.isTerminal hphase) fun e he hend ↦ (honly e he hend).trans hphase.symm
    exact ⟨horder.1, horder.2.1, horder.2.2.1, horder.2.2.2,
      iff_of_true ⟨hphase, hpercent⟩ rfl⟩

/-- A file is committed, and then the pull request is refused: the run fails at 97 percent. -/
theorem reports_in_order_refused_pull :
    let store : Store := .ofBranch "main" [("A.java", "class A")] true
    let repo : Faulty Store := ⟨store, { pullRequest := some ⟨.authorization, "forbidden"⟩ }⟩
    let settings : Settings := { newBranch := "migrated", sourceRoots := ["src"] }
    let request : Request := { mode := .manual, createPullRequest := true }
    let response := (run .quiet settings request repo).1
    let reports := (run .quiet settings request repo).2.events
    crashes .quiet settings request repo = false ∧
      reports.map Event.point = [(1, 5), (2, 15), (2, 20), (2, 40), (3, 40), (3, 70), (4, 75),
        (5, 80), (5, 95), (5, 97), (6, 97)] ∧
      (reports.Pairwise fun e later ↦
        e.phase.rank ≤ later.phase.rank ∧ e.percent ≤ later.percent) ∧
      ¬ (response.status.phase = .completed ∧ response.status.percent = 100) := by
  intro store repo settings request
  dsimp only
  obtain ⟨hcrash, hpoints, hfailure⟩ : crashes .quiet settings request repo = false ∧
      (run .quiet settings request repo).2.events.map Event.point = [(1, 5), (2, 15), (2, 20),
        (2, 40), (3, 40), (3, 70), (4, 75), (5, 80), (5, 95), (5, 97), (6, 97)] ∧
      (run .quiet settings request repo).1.failure.isSome = true := by
    decide +kernel
  obtain ⟨hordered, _, _, _, hiff⟩ := reports_in_order .quiet settings request repo hcrash
  refine ⟨hcrash, hpoints, hordered, fun h ↦ ?_⟩
  rw [hiff.mp h] at hfailure
  cases hfailure

end SuiteMigration.Run
