/-!
Spacing of requests. Each request reserves the next moment at which it may start: not before the
clock, and not closer to the previous one than the interval.
-/

set_option autoImplicit false
set_option relaxedAutoImplicit false

namespace SuiteMigration.Reading

/-- Times are in milliseconds. -/
structure Limiter where
  interval : Nat
  /-- The moment reserved last. -/
  last : Option Nat := none
  deriving DecidableEq, Repr

def Limiter.slot (l : Limiter) (now : Nat) : Nat :=
  match l.last with
  | some previous => max (previous + l.interval) now
  | none => now

/-- Reserves the next moment. -/
def Limiter.reserve (l : Limiter) (now : Nat) : Nat × Limiter :=
  (l.slot now, { l with last := some (l.slot now) })

/-- Something that one caller does after another. -/
inductive Turn where
  | acquire
  | sleep (ms : Nat)
  deriving DecidableEq, Repr

/-- The times at which a single caller finishes its turns. -/
def Limiter.times (l : Limiter) (now : Nat) : List Turn → List Nat
  | [] => []
  | .acquire :: rest =>
      let (slot, next) := l.reserve now
      slot :: next.times slot rest
  | .sleep ms :: rest => (now + ms) :: l.times (now + ms) rest

end SuiteMigration.Reading
