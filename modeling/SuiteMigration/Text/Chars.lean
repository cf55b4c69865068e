import SuiteMigration.Text.Character

/-!
Operations on character lists: trimming, lines, words, splitting and searching. Every reader of the
library works on character lists and turns its results back into strings at the end.
-/

set_option autoImplicit false
set_option relaxedAutoImplicit false

namespace SuiteMigration.Chars

open SuiteMigration.Text

def trimStart (cs : List Char) : List Char :=
  cs.dropWhile isBlank

def dropEndWhile (p : Char → Bool) (cs : List Char) : List Char :=
  (cs.reverse.dropWhile p).reverse

def trimEnd (cs : List Char) : List Char :=
  dropEndWhile isBlank cs

def trim (cs : List Char) : List Char :=
  trimEnd (trimStart cs)

/-- Lines end at a line feed, with a carriage return before it, or at the end of the text. The text
after the last line feed is a line only if it is not empty. -/
def lines : List Char → List (List Char)
  | [] => []
  | '\r' :: '\n' :: rest => [] :: lines rest
  | '\n' :: rest => [] :: lines rest
  | c :: rest =>
      match lines rest with
      | [] => [[c]]
      | first :: others => (c :: first) :: others

/-- Maximal runs of characters that are not white space. -/
def words : List Char → List (List Char)
  | [] => []
  | c :: rest =>
      if isBlank c then words rest
      else
        match rest with
        | [] => [[c]]
        | d :: _ =>
            if isBlank d then [c] :: words rest
            else
              match words rest with
              | [] => [[c]]
              | first :: others => (c :: first) :: others

/-- The pieces between the characters that satisfy `p`; always at least one piece. -/
def splitBy (p : Char → Bool) : List Char → List (List Char)
  | [] => [[]]
  | c :: rest =>
      if p c then [] :: splitBy p rest
      else
        match splitBy p rest with
        | [] => [[c]]
        | first :: others => (c :: first) :: others

def splitOn (separator : Char) (cs : List Char) : List (List Char) :=
  splitBy (· == separator) cs

/-- What follows `start` in `cs`, if `cs` starts with it. -/
def afterStart? : List Char → List Char → Option (List Char)
  | [], cs => some cs
  | _ :: _, [] => none
  | p :: start, c :: cs => if p = c then afterStart? start cs else none

def startsWith (cs start : List Char) : Bool :=
  (afterStart? start cs).isSome

/-- What precedes `ending` in `cs`, if `cs` ends with it. -/
def beforeEnd? (ending cs : List Char) : Option (List Char) :=
  (afterStart? ending.reverse cs.reverse).map List.reverse

def endsWith (cs ending : List Char) : Bool :=
  (beforeEnd? ending cs).isSome

/-- The text around the first occurrence of `part`. -/
def breakOn? (part : List Char) : List Char → Option (List Char × List Char)
  | [] => if part.isEmpty then some ([], []) else none
  | c :: rest =>
      match afterStart? part (c :: rest) with
      | some after => some ([], after)
      | none => (breakOn? part rest).map fun (before, after) ↦ (c :: before, after)

def contains (cs part : List Char) : Bool :=
  (breakOn? part cs).isSome

/-- The text around the last occurrence of `part`. -/
def breakOnLast? (part cs : List Char) : Option (List Char × List Char) :=
  (breakOn? part.reverse cs.reverse).map fun (after, before) ↦ (before.reverse, after.reverse)

/-- Replaces the occurrences of a non-empty `part`, from left to right; `skip` characters belong to
an occurrence already replaced. -/
def replaceFrom (part image : List Char) : Nat → List Char → List Char
  | _, [] => []
  | skip + 1, _ :: rest => replaceFrom part image skip rest
  | 0, c :: rest =>
      if startsWith (c :: rest) part then image ++ replaceFrom part image (part.length - 1) rest
      else c :: replaceFrom part image 0 rest

def replace (part image cs : List Char) : List Char :=
  replaceFrom part image 0 cs

/-- Number of bytes of the text in UTF-8. -/
def byteSize : List Char → Nat
  | [] => 0
  | c :: rest => c.utf8Size + byteSize rest

/-- The text from the byte position `offset` on: the bytes that are left of a character that the
position cuts, and the characters after it. -/
def dropBytes : Nat → List Char → List UInt8 × List Char
  | _, [] => ([], [])
  | 0, cs => ([], cs)
  | offset + 1, c :: rest =>
      if c.utf8Size ≤ offset + 1 then dropBytes (offset + 1 - c.utf8Size) rest
      else ((String.utf8EncodeChar c).drop (offset + 1), rest)

def join (separator : List Char) (parts : List (List Char)) : List Char :=
  separator.intercalate parts

/-- The words of a text joined by single spaces. -/
def collapse (cs : List Char) : List Char :=
  join [' '] (words cs)

end SuiteMigration.Chars
