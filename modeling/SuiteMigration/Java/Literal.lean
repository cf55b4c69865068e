import SuiteMigration.Text.Basic

/-!
String and number literals.
-/

set_option autoImplicit false
set_option relaxedAutoImplicit false

namespace SuiteMigration.Java

open SuiteMigration.Text

/-- The character that an escape letter stands for. -/
def escapedChar (c : Char) : Char :=
  match c with
  | 'n' => '\n'
  | 't' => '\t'
  | 'r' => '\r'
  | '0' => Char.ofNat 0
  | other => other

/-- The value of the inside of a string literal. A backslash at the end stands for itself. -/
def unescapeChars : List Char → List Char
  | [] => []
  | '\\' :: c :: rest => escapedChar c :: unescapeChars rest
  | c :: rest => c :: unescapeChars rest

def unescape (literal : String) : String :=
  String.ofList (unescapeChars literal.toList)

/-- The inside of a literal whose opening quote has been read. An escaped character is any but a
line feed. -/
def literalBody? : List Char → Option (List Char)
  | [] => none
  | '"' :: _ => some []
  | '\\' :: c :: rest =>
      if c == '\n' then none else (literalBody? rest).map fun body ↦ '\\' :: c :: body
  | '\\' :: [] => none
  | c :: rest => (literalBody? rest).map fun body ↦ c :: body

/-- The inside of the first string literal of a text. -/
def firstLiteralBody? : List Char → Option (List Char)
  | [] => none
  | c :: rest =>
      if c == '"' then
        match literalBody? rest with
        | some body => some body
        | none => firstLiteralBody? rest
      else firstLiteralBody? rest

/-- The value of the first string literal of a text. -/
def firstLiteral? (text : String) : Option String :=
  (firstLiteralBody? text.toList).map fun body ↦ String.ofList (unescapeChars body)

/-- Whether an expression starts and ends with a quote. -/
def isQuoted (cs : List Char) : Bool :=
  match cs with
  | '"' :: rest => rest.getLast? == some '"'
  | _ => false

/-- What stands between the first and the last character. -/
def inner (cs : List Char) : List Char :=
  cs.tail.dropLast

/-- The suffix letters of long, float and double literals. -/
def isNumberSuffix (c : Char) : Bool :=
  c == 'L' || c == 'l' || c == 'f' || c == 'F' || c == 'd' || c == 'D'

/-- An exponent: an `e` of either case, an optional sign and at least one digit. Nothing at all is
an exponent too. -/
def isExponent : List Char → Bool
  | [] => true
  | c :: rest =>
      (c == 'e' || c == 'E') &&
        (let digits :=
          match rest with
          | '+' :: more => more
          | '-' :: more => more
          | more => more
         !digits.isEmpty && digits.all isAsciiDigit)

/-- A number without sign: digits with at most one point, at least one digit, and an exponent; or a
word for infinity or not-a-number. -/
def isUnsignedNumber (cs : List Char) : Bool :=
  let word := toAsciiLower (String.ofList cs)
  if word == "inf" || word == "infinity" || word == "nan" then true
  else
    let whole := cs.takeWhile isAsciiDigit
    match cs.dropWhile isAsciiDigit with
    | '.' :: rest =>
        let fraction := rest.takeWhile isAsciiDigit
        !(whole.isEmpty && fraction.isEmpty) && isExponent (rest.dropWhile isAsciiDigit)
    | rest => !whole.isEmpty && isExponent rest

/-- A decimal number with an optional sign. -/
def isNumber : List Char → Bool
  | '+' :: rest => isUnsignedNumber rest
  | '-' :: rest => isUnsignedNumber rest
  | cs => isUnsignedNumber cs

/-- A number literal without its suffix letters. -/
def withoutNumberSuffix (text : String) : String :=
  dropEndWhile isNumberSuffix text

def isNumberLiteral (text : String) : Bool :=
  isNumber (withoutNumberSuffix text).toList

/-- The value of a decimal numeral of ASCII digits. -/
def digitsValue (cs : List Char) : Nat :=
  cs.foldl (fun n c ↦ n * 10 + (c.toNat - 48)) 0

/-- An unsigned decimal number below `bound`, with an optional plus sign. -/
def unsignedBelow? (bound : Nat) (text : String) : Option Nat :=
  let digits :=
    match text.toList with
    | '+' :: rest => rest
    | cs => cs
  if digits.isEmpty || !digits.all isAsciiDigit then none
  else if digitsValue digits < bound then some (digitsValue digits) else none

end SuiteMigration.Java
