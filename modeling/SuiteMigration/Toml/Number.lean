import SuiteMigration.Text.Decimal
import SuiteMigration.Toml.Quoted
import SuiteMigration.Toml.Value

/-!
Numbers, dates and times of TOML documents.
-/

set_option autoImplicit false
set_option relaxedAutoImplicit false

namespace SuiteMigration.Toml

def isDigit (c : Char) : Bool :=
  '0' ≤ c && c ≤ '9'

/-- Digits with single underscores between them, without the underscores. -/
def digits? (isOne : Char → Bool) : Reader (List Char)
  | [] => none
  | [c] => if isOne c then some ([c], []) else none
  | c :: d :: rest =>
      if !isOne c then none
      else if d == '_' then push c (digits? isOne rest)
      else if isOne d then push c (digits? isOne (d :: rest))
      else some ([c], d :: rest)

/-- The value of digits in a base. -/
def numeral (base : Nat) (digits : List Char) : Nat :=
  digits.foldl (fun n c ↦ base * n + (hexDigit? c).getD 0) 0

/-- A sign; whether it is a minus. -/
def sign : List Char → Bool × List Char
  | '-' :: rest => (true, rest)
  | '+' :: rest => (false, rest)
  | cs => (false, cs)

/-- Decimal digits without leading zeros. -/
def wholeDigits? : Reader (List Char)
  | '0' :: rest => some (['0'], rest)
  | cs => digits? isDigit cs

/-- A number within 64 bits. -/
def bounded (negative : Bool) (n : Nat) : Option Value :=
  if negative then if n ≤ Nat.pow 2 63 then some (.integer (-n)) else none
  else if n < Nat.pow 2 63 then some (.integer n) else none

def based? (base : Nat) (isOne : Char → Bool) (cs : List Char) : Option (Value × List Char) := do
  let (digits, rest) ← digits? isOne cs
  return (← bounded false (numeral base digits), rest)

def integer? : Reader Value
  | '0' :: 'x' :: rest => based? 16 (fun c ↦ (hexDigit? c).isSome) rest
  | '0' :: 'o' :: rest => based? 8 (fun c ↦ '0' ≤ c && c ≤ '7') rest
  | '0' :: 'b' :: rest => based? 2 (fun c ↦ c == '0' || c == '1') rest
  | cs => do
      let (negative, cs) := sign cs
      let (digits, rest) ← wholeDigits? cs
      return (← bounded negative (numeral 10 digits), rest)

/-- The fraction of a number, after the whole part. -/
def fraction? : Reader (List Char)
  | '.' :: rest => digits? isDigit rest
  | _ => none

/-- The power of ten of a number. -/
def power? : Reader Int
  | c :: rest =>
      if c == 'e' || c == 'E' then do
        let (negative, cs) := sign rest
        let (digits, rest) ← digits? isDigit cs
        let n := numeral 10 digits
        return (if negative then -n else n, rest)
      else none
  | [] => none

/-- The double nearest to a decimal number. Numbers far out of range are cut off before they are
computed. -/
def scientific (digits : Nat) (exponent : Int) : Float :=
  let magnitude := (Nat.toDigits 10 digits).length + exponent
  if digits == 0 || magnitude < -400 then 0
  else if 400 < magnitude then 1 / 0
  else Text.nearest (digits * Nat.pow 10 exponent.toNat) (Nat.pow 10 (-exponent).toNat)

/-- A number with a fraction or a power. One that is too large is refused if it is positive. -/
def real? (cs : List Char) : Option (Value × List Char) := do
  let (negative, cs) := sign cs
  let (whole, rest) ← wholeDigits? cs
  let (fraction, exponent, rest) ←
    match fraction? rest with
    | some (fraction, rest) =>
        match power? rest with
        | some (exponent, rest) => some (fraction, exponent, rest)
        | none => some (fraction, 0, rest)
    | none => (power? rest).map fun (exponent, rest) ↦ ([], exponent, rest)
  let size := scientific (numeral 10 (whole ++ fraction)) (exponent - fraction.length)
  if size.isInf && !negative then none
  else return (.real (if negative then -size else size), rest)

/-- An infinity, or what is no number. -/
def special? (cs : List Char) : Option (Value × List Char) :=
  let (negative, cs) := sign cs
  let signed := fun x : Float ↦ Value.real (if negative then -x else x)
  match cs with
  | 'i' :: 'n' :: 'f' :: rest => some (signed (1 / 0), rest)
  | 'n' :: 'a' :: 'n' :: rest => some (signed (Float.ofBits 0x7FF8000000000000), rest)
  | _ => none

/-- A number of a fixed width within bounds. -/
def fixedWidth? (width least most : Nat) (cs : List Char) : Option (Nat × List Char) :=
  let digits := cs.take width
  let n := numeral 10 digits
  if digits.length == width && digits.all isDigit && decide (least ≤ n) && decide (n ≤ most) then
    some (n, cs.drop width)
  else none

def expect? (c : Char) : List Char → Option (List Char)
  | d :: rest => if c == d then some rest else none
  | [] => none

def isLeapYear (year : Nat) : Bool :=
  year % 4 == 0 && (year % 100 != 0 || year % 400 == 0)

def daysInMonth (year month : Nat) : Nat :=
  if month == 2 then if isLeapYear year then 29 else 28
  else if [4, 6, 9, 11].contains month then 30
  else 31

/-- The rest after a date. -/
def date? (cs : List Char) : Option (List Char) := do
  let (year, rest) ← fixedWidth? 4 0 9999 cs
  let (month, rest) ← fixedWidth? 2 1 12 (← expect? '-' rest)
  let (_, rest) ← fixedWidth? 2 1 (daysInMonth year month) (← expect? '-' rest)
  return rest

/-- The rest after a time. -/
def time? (cs : List Char) : Option (List Char) := do
  let (_, rest) ← fixedWidth? 2 0 23 cs
  let (_, rest) ← fixedWidth? 2 0 59 (← expect? ':' rest)
  let (_, rest) ← fixedWidth? 2 0 60 (← expect? ':' rest)
  match rest with
  | '.' :: d :: after => return if isDigit d then after.dropWhile isDigit else rest
  | _ => return rest

/-- The rest after the distance of a time from universal time, if there is one. -/
def offset? : List Char → Option (List Char)
  | c :: rest =>
      if c == 'Z' || c == 'z' then some rest
      else if c == '+' || c == '-' then do
        let (_, rest) ← fixedWidth? 2 0 23 rest
        let (_, rest) ← fixedWidth? 2 0 59 (← expect? ':' rest)
        return rest
      else some (c :: rest)
  | [] => some []

/-- A time after a date. -/
def timeAfterDate (cs : List Char) : Option (List Char) :=
  match cs with
  | c :: rest =>
      if c == 'T' || c == 't' || c == ' ' then
        match time? rest with
        | some after => offset? after
        | none => some cs
      else some cs
  | [] => some []

def moment? (cs : List Char) : Option (Value × List Char) :=
  let rest? :=
    match date? cs with
    | some rest => timeAfterDate rest
    | none => time? cs
  rest?.map fun rest ↦ (.moment, rest)

/-- A number, a date or a time. -/
def number? (cs : List Char) : Option (Value × List Char) :=
  moment? cs <|> real? cs <|> special? cs <|> integer? cs

end SuiteMigration.Toml
