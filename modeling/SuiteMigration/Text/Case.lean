import SuiteMigration.Text.Character
import SuiteMigration.Text.Table.CaseMap

/-!
Upper and lower case of whole texts. A character may become several characters, and a capital sigma
that ends a word becomes the final form of the small sigma.
-/

set_option autoImplicit false
set_option relaxedAutoImplicit false

namespace SuiteMigration.Text

/-- The case mapping given by expansions, and by shifts for every other character. -/
def mapCase (expansions : List (Nat × List Nat)) (shifts : List Table.Shift) (c : Char) :
    List Char :=
  if c.toNat < 128 then [Char.ofNat (Table.shifted shifts c.toNat)]
  else
    match expansions.lookup c.toNat with
    | some images => images.map Char.ofNat
    | none => [Char.ofNat (Table.shifted shifts c.toNat)]

def upperChar (c : Char) : List Char :=
  mapCase Table.upperExpansions Table.upperShifts c

def lowerChar (c : Char) : List Char :=
  mapCase Table.lowerExpansions Table.lowerShifts c

def isCaseIgnorable (c : Char) : Bool :=
  Table.contains Table.caseIgnorable c.toNat

def isCased (c : Char) : Bool :=
  Table.contains Table.cased c.toNat

/-- Whether a text, read outward from a sigma, reaches a cased character past the ignorable ones. -/
def reachesCased (cs : List Char) : Bool :=
  match cs.dropWhile isCaseIgnorable with
  | [] => false
  | c :: _ => isCased c

/-- Lower case of `rest`, where `before` is what precedes it, last character first. -/
def lowerFrom : List Char → List Char → List Char
  | _, [] => []
  | before, c :: rest =>
      let image :=
        if c == 'Σ' then
          if reachesCased before && !reachesCased rest then ['ς'] else ['σ']
        else lowerChar c
      image ++ lowerFrom (c :: before) rest

def toLower (s : String) : String :=
  String.ofList (lowerFrom [] s.toList)

def toUpper (s : String) : String :=
  String.ofList (s.toList.flatMap upperChar)

def asciiLowerChar (c : Char) : Char :=
  if 'A' ≤ c ∧ c ≤ 'Z' then Char.ofNat (c.toNat + 32) else c

/-- Lower case of the ASCII letters only. -/
def toAsciiLower (s : String) : String :=
  String.ofList (s.toList.map asciiLowerChar)

/-- Whether two texts are equal up to the case of ASCII letters. -/
def equalIgnoringAsciiCase (a b : String) : Bool :=
  toAsciiLower a == toAsciiLower b

end SuiteMigration.Text
