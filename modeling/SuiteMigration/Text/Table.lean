/-!
Sets of code points and case mappings written as ordered runs. A look-up stops at the first run
that reaches the code point, so the common characters at the start of a table are found at once.
-/

set_option autoImplicit false
set_option relaxedAutoImplicit false

namespace SuiteMigration.Text.Table

/-- The code points `first`, `first + step`, and so on up to `last`. -/
structure Run where
  first : Nat
  last : Nat
  step : Nat

/-- A run of code points that all move by the same offset. -/
structure Shift where
  run : Run
  offset : Int

def Run.contains (run : Run) (n : Nat) : Bool :=
  decide (run.first ≤ n) && decide (n ≤ run.last) && (n - run.first) % run.step == 0

/-- Membership in a table whose runs are in ascending order and do not overlap. -/
def contains : List Run → Nat → Bool
  | [], _ => false
  | run :: rest, n => if n ≤ run.last then run.contains n else contains rest n

/-- The image of a code point under ascending shifts; a code point in no run stays itself. -/
def shifted : List Shift → Nat → Nat
  | [], n => n
  | shift :: rest, n =>
      if n ≤ shift.run.last then
        if shift.run.contains n then (Int.ofNat n + shift.offset).toNat else n
      else shifted rest n

end SuiteMigration.Text.Table
