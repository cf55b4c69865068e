import SuiteMigration.Java.Region
import SuiteMigration.Text.Chars

/-!
Delimiters in code: the extent of a bracketed region and the first code character of a kind.
Brackets inside literals and comments never count.
-/

set_option autoImplicit false
set_option relaxedAutoImplicit false

namespace SuiteMigration.Java

/-- Text cut in two at a place that is not part of either side. -/
structure Cut where
  before : List Char
  after : List Char

def Cut.push (c : Char) (cut : Cut) : Cut :=
  { cut with before := c :: cut.before }

/-- Cuts the text at the closing bracket that is not matched inside it, when `depth` inner brackets
are still open. -/
def closeFrom (opening closing : Char) : Nat → List Mark → Option Cut
  | _, [] => none
  | depth, mark :: rest =>
      if mark.isCode opening then
        (closeFrom opening closing (depth + 1) rest).map (Cut.push mark.char)
      else if mark.isCode closing then
        match depth with
        | 0 => some ⟨[], textOf rest⟩
        | inner + 1 => (closeFrom opening closing inner rest).map (Cut.push mark.char)
      else (closeFrom opening closing depth rest).map (Cut.push mark.char)

/-- The inside of the bracketed region with which the text starts, and what follows the region. -/
def enclosed? (opening closing : Char) (cs : List Char) : Option Cut :=
  match marks cs with
  | [] => none
  | mark :: rest => if mark.isCode opening then closeFrom opening closing 0 rest else none

/-- The text before the first code character that satisfies `p`, that character, and the rest. -/
def breakMarks? (p : Char → Bool) : List Mark → Option (List Char × Char × List Char)
  | [] => none
  | mark :: rest =>
      if mark.kind == .code && p mark.char then some ([], mark.char, textOf rest)
      else
        (breakMarks? p rest).map fun (before, found, after) ↦ (mark.char :: before, found, after)

def breakCode? (p : Char → Bool) (cs : List Char) : Option (List Char × Char × List Char) :=
  breakMarks? p (marks cs)

/-- The bytes of the code characters among `ms`, each with its position, when the first mark stands
at byte `offset`. -/
def codeBytesFrom : Nat → List Mark → List (Nat × UInt8)
  | _, [] => []
  | offset, mark :: rest =>
      let later := codeBytesFrom (offset + mark.char.utf8Size) rest
      if mark.kind == .code then
        (String.utf8EncodeChar mark.char).mapIdx (fun i byte ↦ (offset + i, byte)) ++ later
      else later

/-- The code bytes from byte `offset` on. A position inside a character counts as code and starts
with the rest of that character's bytes. -/
def codeBytes (text : String) (offset : Nat) : List (Nat × UInt8) :=
  let (tail, rest) := Chars.dropBytes offset text.toList
  tail.mapIdx (fun i byte ↦ (offset + i, byte)) ++
    codeBytesFrom (offset + tail.length) (marks rest)

/-- Position of the first code byte at or after `offset` that is among `wanted`. -/
def findCode? (text : String) (offset : Nat) (wanted : List UInt8) : Option Nat :=
  ((codeBytes text offset).find? fun (_, byte) ↦ wanted.contains byte).map (·.1)

/-- A bracketed region of a text: what is inside, and the byte position of the closing bracket. -/
structure Delimited where
  body : String
  close : Nat
  deriving DecidableEq, Repr

/-- The bracketed region that opens at a byte position. -/
def scanDelimited? (text : String) (position : Nat) (opening closing : Char) : Option Delimited :=
  match Chars.dropBytes position text.toList with
  | ([], rest) =>
      (enclosed? opening closing rest).map fun cut ↦
        ⟨String.ofList cut.before, position + opening.utf8Size + Chars.byteSize cut.before⟩
  | (_ :: _, _) => none

/-- The brace block that opens at a byte position. -/
def scanBlock? (text : String) (position : Nat) : Option Delimited :=
  scanDelimited? text position '\x7b' '\x7d'

end SuiteMigration.Java
