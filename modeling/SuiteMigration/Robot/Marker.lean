import SuiteMigration.Java.Literal
import SuiteMigration.Mode

/-!
The marker line of generated files. It records the mode, the highest tier ever applied and whether
the file has been checked; so a run can tell what is left to do.
-/

set_option autoImplicit false
set_option relaxedAutoImplicit false

namespace SuiteMigration.Robot

open SuiteMigration.Text

structure Marker where
  mode : Mode
  tier : Nat
  validated : Bool := false
  deriving DecidableEq, Repr

/-- How a marker line starts. -/
def markerStart : String :=
  "# robomigrate:"

def Marker.render (m : Marker) : String :=
  markerStart ++ s!" mode={m.mode.label} tier={m.tier}" ++
    (if m.validated then " validated" else "")

def isMarkerLine (line : String) : Bool :=
  startsWith (trim line) markerStart

/-- Drops the byte-order marks at the start of a text. -/
def withoutByteOrderMark (content : String) : String :=
  dropStartWhile (fun c ↦ c.toNat == 0xFEFF) content

/-- The tier in a marker: a number below 256, brought into the range of tiers; one if it cannot be
read. -/
def markerTier (text : String) : Nat :=
  max 1 (min 3 ((Java.unsignedBelow? 256 text).getD 1))

/-- What one word of a marker line says. -/
def Marker.readWord (m : Marker) (word : String) : Marker :=
  match afterStart? "mode=" word with
  | some mode => { m with mode := (Mode.ofLabel? mode).getD .enhanced }
  | none =>
      match afterStart? "tier=" word with
      | some tier => { m with tier := markerTier tier }
      | none => if word == "validated" then { m with validated := true } else m

/-- The marker on the first line of a file that is not blank. -/
def Marker.parse? (content : String) : Option Marker := do
  let first ← (lines (withoutByteOrderMark content)).find? fun line ↦ !isBlankText line
  let rest ← afterStart? markerStart (trim first)
  return (words rest).foldl Marker.readWord { mode := .enhanced, tier := 1 }

/-- The lines of a file below its leading blank lines and markers. -/
def unmarkedLines (content : String) : List String :=
  (lines (withoutByteOrderMark content)).dropWhile fun line ↦ isBlankText line || isMarkerLine line

/-- Puts the marker on the first line in place of any marker there. -/
def ensureMarker (content : String) (m : Marker) : String :=
  let text := m.render ++ "\n" ++ String.intercalate "\n" (unmarkedLines content)
  if endsWith text "\n" then text else text ++ "\n"

end SuiteMigration.Robot
