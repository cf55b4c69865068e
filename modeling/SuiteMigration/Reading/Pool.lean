import SuiteMigration.Engine
import SuiteMigration.Reading.Limiter
import SuiteMigration.Repository.Basic

/-!
Reading of many files by a pool of workers that share one limiter. A read that is throttled is tried
again after a pause, as often as there are pauses in the policy. Time passes only when no worker can
go on; workers that can go on at one moment do so in the order in which they became ready.
-/

set_option autoImplicit false
set_option relaxedAutoImplicit false

namespace SuiteMigration.Reading

open SuiteMigration.Repository

/-- Times are in milliseconds. -/
structure Policy where
  maxWorkers : Nat := 3
  minInterval : Nat := 500
  /-- The pauses before further attempts. -/
  backoff : List Nat := [20000, 30000, 40000]
  deriving DecidableEq, Repr

/-- The number of workers for a number of files; at least one. -/
def Policy.workersFor (p : Policy) (files : Nat) : Nat :=
  min (max p.maxWorkers 1) (max files 1)

/-- A call to read a file, and when it was made. -/
structure Call where
  time : Nat
  path : String
  branch : String
  deriving DecidableEq, Repr

structure Outcome where
  file : DiscoveredFile
  result : Except Error String
  attempts : Nat

/-- What a worker does when it goes on. -/
inductive Stage where
  | reserve
  | read
  deriving DecidableEq, Repr

/-- A worker on the file at a position of the list. -/
structure Worker where
  index : Nat
  file : DiscoveredFile
  attempts : Nat := 0
  stage : Stage := .reserve

/-- A worker that goes on at a later time. -/
structure Timer where
  due : Nat
  worker : Worker

structure Pool (R : Type) where
  repo : R
  now : Nat
  limiter : Limiter
  /-- Workers that can go on, in that order. -/
  ready : List Worker
  /-- Workers that wait, in the order in which they began to. -/
  timers : List Timer := []
  /-- Files that no worker has taken yet. -/
  waiting : List Worker
  calls : List Call := []
  /-- Outcomes by the position of their file, in the order in which they were reached. -/
  finished : List (Nat × Outcome) := []

variable {R : Type} [Repository R]

/-- A pool that starts to read files at a time. -/
def Pool.start (policy : Policy) (files : List DiscoveredFile) (repo : R) (now : Nat) : Pool R :=
  let workers := files.mapIdx fun index file ↦ ({ index, file } : Worker)
  let width := policy.workersFor files.length
  { repo, now
    limiter := { interval := policy.minInterval }
    ready := workers.take width
    waiting := workers.drop width }

/-- A worker has its outcome; the next file is taken up. -/
def Pool.finish (p : Pool R) (w : Worker) (result : Except Error String) : Pool R :=
  { p with
    finished := p.finished ++ [(w.index, ⟨w.file, result, w.attempts⟩)]
    ready := p.ready ++ p.waiting.take 1
    waiting := p.waiting.drop 1 }

/-- A worker reads its file. After a throttled read it pauses and reserves again, if the policy has
a pause left for it. -/
def Pool.read (policy : Policy) (p : Pool R) (w : Worker) : Pool R :=
  let (result, repo) := Repository.readFile w.file.path (some w.file.branch) p.repo
  let w : Worker := { w with attempts := w.attempts + 1 }
  let p : Pool R := { p with repo, calls := p.calls ++ [⟨p.now, w.file.path, w.file.branch⟩] }
  match result with
  | .ok text => p.finish w (.ok text)
  | .error e =>
      match e.isThrottling, policy.backoff[w.attempts - 1]? with
      | true, some pause =>
          let again : Worker := { w with stage := .reserve }
          if pause == 0 then { p with ready := again :: p.ready }
          else { p with timers := p.timers ++ [⟨p.now + pause, again⟩] }
      | _, _ => p.finish w (.error e)

/-- A worker goes on. -/
def Pool.advance (policy : Policy) (p : Pool R) (w : Worker) : Pool R :=
  match w.stage with
  | .read => p.read policy w
  | .reserve =>
      let (slot, limiter) := p.limiter.reserve p.now
      let p : Pool R := { p with limiter }
      let w : Worker := { w with stage := .read }
      if p.now < slot then { p with timers := p.timers ++ [⟨slot, w⟩] } else p.read policy w

/-- The earliest time that a worker waits for. -/
def earliest? (timers : List Timer) : Option Nat :=
  timers.foldl (fun best t ↦ some (min (best.getD t.due) t.due)) none

/-- Time passes until the first worker can go on again. -/
def Pool.wake (p : Pool R) (time : Nat) : Pool R :=
  { p with
    now := time
    ready := (p.timers.filter fun t ↦ decide (t.due ≤ time)).map Timer.worker
    timers := p.timers.filter fun t ↦ !decide (t.due ≤ time) }

/-- Runs a pool to its end, or until it has reached a number of outcomes at which it is stopped;
`fuel` bounds the number of steps. -/
def Pool.run (policy : Policy) (stops : Nat → Bool) : Nat → Pool R → Pool R
  | 0, p => p
  | fuel + 1, p =>
      match p.ready with
      | w :: rest =>
          let next := { p with ready := rest }.advance policy w
          if p.finished.length < next.finished.length && stops next.finished.length then next
          else Pool.run policy stops fuel next
      | [] =>
          match earliest? p.timers with
          | some time => Pool.run policy stops fuel (p.wake time)
          | none => p

/-- A bound on the steps of a pool: each attempt takes a reservation, a read and two waits at
most. -/
def stepBound (policy : Policy) (files : Nat) : Nat :=
  4 * files * (policy.backoff.length + 1) + 1

/-- Reads files, starting at a time, until all have an outcome or the reading is stopped. -/
def readAll (policy : Policy) (stops : Nat → Bool) (files : List DiscoveredFile) (repo : R)
    (now : Nat) : Pool R :=
  (Pool.start policy files repo now).run policy stops (stepBound policy files.length)

/-- The outcomes in the order of the files. -/
def Pool.outcomes (p : Pool R) (files : Nat) : List Outcome :=
  (List.range files).filterMap fun index ↦ p.finished.lookup index

end SuiteMigration.Reading
