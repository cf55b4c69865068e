import SuiteMigration.Text.Chars

/-!
Occurrences of a pattern in a text. A recogniser looks at one position and says how many characters
the pattern takes there; the text is then cut, from left to right, into the characters outside the
pattern and the occurrences of it.
-/

set_option autoImplicit false
set_option relaxedAutoImplicit false

namespace SuiteMigration.Text

/-- The length of a pattern at a position, given the character before it and the text from it on. -/
abbrev Recogniser := Option Char → List Char → Option Nat

inductive Piece where
  | plain (c : Char)
  | found (text : List Char)

/-- Cuts a text at the occurrences of a pattern; `skip` characters belong to the last occurrence. -/
def piecesFrom (recognise : Recogniser) : Nat → Option Char → List Char → List Piece
  | _, _, [] => []
  | skip + 1, _, c :: rest => piecesFrom recognise skip (some c) rest
  | 0, before, c :: rest =>
      match recognise before (c :: rest) with
      | some n => .found ((c :: rest).take n) :: piecesFrom recognise (n - 1) (some c) rest
      | none => .plain c :: piecesFrom recognise 0 (some c) rest

def pieces (recognise : Recogniser) (cs : List Char) : List Piece :=
  piecesFrom recognise 0 none cs

def Piece.isFound : Piece → Bool
  | .found _ => true
  | .plain _ => false

def occurrences (recognise : Recogniser) (cs : List Char) : List (List Char) :=
  (pieces recognise cs).filterMap fun
    | .found text => some text
    | .plain _ => none

/-- Writes every occurrence as its image. -/
def replaceOccurrences (recognise : Recogniser) (image : List Char → List Char)
    (cs : List Char) : List Char :=
  (pieces recognise cs).flatMap fun
    | .found text => image text
    | .plain c => [c]

/-- The pieces of a text between the occurrences; always at least one piece. -/
def splitPieces : List Piece → List (List Char)
  | [] => [[]]
  | .found _ :: rest => [] :: splitPieces rest
  | .plain c :: rest =>
      match splitPieces rest with
      | [] => [[c]]
      | first :: others => (c :: first) :: others

def splitAtOccurrences (recognise : Recogniser) (cs : List Char) : List (List Char) :=
  splitPieces (pieces recognise cs)

/-- Whether the pattern occurs anywhere. -/
def occursIn (recognise : Recogniser) : Option Char → List Char → Bool
  | _, [] => false
  | before, c :: rest =>
      (recognise before (c :: rest)).isSome || occursIn recognise (some c) rest

/-- Whether a word can start after the character before a position. -/
def atWordStart : Option Char → Bool
  | none => true
  | some c => !isWordChar c

end SuiteMigration.Text
