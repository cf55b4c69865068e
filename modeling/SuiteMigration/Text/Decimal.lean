/-!
Decimal text of doubles. A finite double is a whole number times a power of two, so its decimal
expansion ends; it is written either to its end or rounded to a number of places. A quotient is read
as the double nearest to it.
-/

set_option autoImplicit false
set_option relaxedAutoImplicit false

namespace SuiteMigration.Text

/-- The number `± mantissa · 2 ^ (exponent - 1074)`. -/
structure Binary where
  negative : Bool
  mantissa : Nat
  exponent : Nat
  deriving DecidableEq, Repr

/-- The parts of a finite double. -/
def Binary.ofFloat (x : Float) : Binary :=
  let bits := x.toBits.toNat
  let exponent := bits / Nat.pow 2 52 % Nat.pow 2 11
  let fraction := bits % Nat.pow 2 52
  { negative := bits / Nat.pow 2 63 == 1
    mantissa := if exponent == 0 then fraction else fraction + Nat.pow 2 52
    exponent := exponent - 1 }

/-- The quotient rounded to the nearest whole number; a half goes to the even neighbour. -/
def roundDiv (numerator denominator : Nat) : Nat :=
  let quotient := numerator / denominator
  let twice := 2 * (numerator % denominator)
  if denominator < twice || (twice == denominator && quotient % 2 == 1) then quotient + 1
  else quotient

/-- The double nearest to a quotient; of two that are equally near, the even one. -/
def nearest (numerator denominator : Nat) : Float :=
  let guess : Int := (numerator.log2 : Int) - denominator.log2
  let isBelow :=
    decide (numerator * Nat.pow 2 (-guess).toNat < denominator * Nat.pow 2 guess.toNat)
  let top := if isBelow then guess - 1 else guess
  let unit := max (top - 52) (-1074)
  let mantissa :=
    roundDiv (numerator * Nat.pow 2 (-unit).toNat) (denominator * Nat.pow 2 unit.toNat)
  let bits := (unit + 1074).toNat * Nat.pow 2 52 + mantissa
  if numerator == 0 then 0
  else if 0x7FF * Nat.pow 2 52 ≤ bits then 1 / 0
  else Float.ofBits bits.toUInt64

/-- A whole number with a point before its last digits. -/
def pointed (places : Nat) (digits : Nat) : List Char :=
  let text := Nat.toDigits 10 digits
  let padded := List.replicate (places + 1 - text.length) '0' ++ text
  let whole := padded.take (padded.length - places)
  if places == 0 then whole else whole ++ '.' :: padded.drop (padded.length - places)

/-- A finite double rounded to a number of places. -/
def fixed (places : Nat) (x : Float) : String :=
  let b := Binary.ofFloat x
  let digits := roundDiv (b.mantissa * Nat.pow 2 b.exponent * Nat.pow 10 places) (Nat.pow 2 1074)
  String.ofList ((if b.negative then ['-'] else []) ++ pointed places digits)

/-- Removes the zeros at the end of a fraction, up to its first digit. -/
def withoutTrailingZeros (text : List Char) : List Char :=
  let kept := (text.reverse.dropWhile (· == '0')).reverse
  if kept.getLast? == some '.' then kept ++ ['0'] else kept

/-- The whole expansion of a finite double, with at least one place. -/
def expansion (x : Float) : String :=
  String.ofList (withoutTrailingZeros (fixed 1074 x).toList)

end SuiteMigration.Text
