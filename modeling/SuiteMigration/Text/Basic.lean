import SuiteMigration.Text.Case
import SuiteMigration.Text.Chars

/-!
The character-list operations on strings.
-/

set_option autoImplicit false
set_option relaxedAutoImplicit false

namespace SuiteMigration.Text

def trim (s : String) : String :=
  String.ofList (Chars.trim s.toList)

def trimStart (s : String) : String :=
  String.ofList (Chars.trimStart s.toList)

def trimEnd (s : String) : String :=
  String.ofList (Chars.trimEnd s.toList)

def dropEndWhile (p : Char → Bool) (s : String) : String :=
  String.ofList (Chars.dropEndWhile p s.toList)

def dropStartWhile (p : Char → Bool) (s : String) : String :=
  String.ofList (s.toList.dropWhile p)

/-- Whether a text holds nothing but white space. -/
def isBlankText (s : String) : Bool :=
  s.toList.all isBlank

def lines (s : String) : List String :=
  (Chars.lines s.toList).map String.ofList

def words (s : String) : List String :=
  (Chars.words s.toList).map String.ofList

def splitBy (p : Char → Bool) (s : String) : List String :=
  (Chars.splitBy p s.toList).map String.ofList

def splitOn (separator : Char) (s : String) : List String :=
  (Chars.splitOn separator s.toList).map String.ofList

def startsWith (s start : String) : Bool :=
  Chars.startsWith s.toList start.toList

def endsWith (s ending : String) : Bool :=
  Chars.endsWith s.toList ending.toList

def contains (s part : String) : Bool :=
  Chars.contains s.toList part.toList

/-- What follows `start` in `s`, if `s` starts with it. -/
def afterStart? (start s : String) : Option String :=
  (Chars.afterStart? start.toList s.toList).map String.ofList

/-- What precedes `ending` in `s`, if `s` ends with it. -/
def beforeEnd? (ending s : String) : Option String :=
  (Chars.beforeEnd? ending.toList s.toList).map String.ofList

/-- The text around the first occurrence of `part`. -/
def breakOn? (part s : String) : Option (String × String) :=
  (Chars.breakOn? part.toList s.toList).map fun (before, after) ↦
    (String.ofList before, String.ofList after)

/-- The text around the last occurrence of `part`. -/
def breakOnLast? (part s : String) : Option (String × String) :=
  (Chars.breakOnLast? part.toList s.toList).map fun (before, after) ↦
    (String.ofList before, String.ofList after)

def replace (part image s : String) : String :=
  String.ofList (Chars.replace part.toList image.toList s.toList)

def byteSize (s : String) : Nat :=
  Chars.byteSize s.toList

/-- The words of a text joined by single spaces. -/
def collapse (s : String) : String :=
  String.ofList (Chars.collapse s.toList)

def takeChars (n : Nat) (s : String) : String :=
  String.ofList (s.toList.take n)

/-- Strings in the order of their code points, which is also the order of their bytes. -/
def le (a b : String) : Bool :=
  !decide (b < a)

/-- Sorts strings by code points. -/
def sort (strings : List String) : List String :=
  strings.mergeSort le

/-- Drops every string equal to the one just before it. -/
def dedup : List String → List String
  | [] => []
  | s :: rest =>
      match rest with
      | [] => [s]
      | t :: _ => if s == t then dedup rest else s :: dedup rest

/-- A number in hexadecimal with at least the given number of digits. -/
def hexadecimal (width number : Nat) : String :=
  let digits := Nat.toDigits 16 number
  String.ofList (List.replicate (width - digits.length) '0' ++ digits)

end SuiteMigration.Text
