import SuiteMigration.Keyword.Name

/-!
Keyword calls for the steps of a feature: quoted texts and numbers become arguments, and the words
that stand for them, with all other words, form the name.
-/

set_option autoImplicit false
set_option relaxedAutoImplicit false

namespace SuiteMigration.Keyword

open SuiteMigration.Text

structure StepCall where
  name : String
  args : List String
  deriving DecidableEq, Repr

/-- A number in a step: an optional minus sign, digits and at most one point, which is neither first
nor last. -/
def isStepNumber (word : List Char) : Bool :=
  let digits :=
    match word with
    | '-' :: rest => rest
    | cs => cs
  !digits.isEmpty && digits.all (fun c ↦ isAsciiDigit c || c == '.') &&
    digits.head?.any isAsciiDigit && decide (digits.count '.' ≤ 1) && digits.getLast? != some '.'

/-- A part of a step: a word, or an argument with the word that stands for it. -/
inductive StepPart where
  | word (text : List Char)
  | argument (standsFor : String) (value : List Char)
  deriving DecidableEq, Repr

/-- The part that a word gives; an empty word gives none. -/
def partOfWord (word : List Char) : List StepPart :=
  if word.isEmpty then []
  else if isStepNumber word then [.argument "number" word]
  else [.word word]

/-- Reads the parts of a step. Outside quotes `current` is the word being read, inside quotes the
text being read, last character first; a quote that is never closed takes the rest of the step. -/
def stepPartsFrom : Bool → List Char → List Char → List StepPart
  | false, current, [] => partOfWord current.reverse
  | true, current, [] => [.argument "text" current.reverse]
  | false, current, c :: rest =>
      if c == '"' then partOfWord current.reverse ++ stepPartsFrom true [] rest
      else if isBlank c then partOfWord current.reverse ++ stepPartsFrom false [] rest
      else stepPartsFrom false (c :: current) rest
  | true, current, c :: rest =>
      if c == '"' then .argument "text" current.reverse :: stepPartsFrom false [] rest
      else stepPartsFrom true (c :: current) rest

def StepPart.nameWord : StepPart → List Char
  | .word text => text
  | .argument standsFor _ => standsFor.toList

def StepPart.value? : StepPart → Option (List Char)
  | .word _ => none
  | .argument _ value => some value

/-- The keyword call for the text of a step. -/
def stepCall (text : String) : StepCall :=
  let parts := stepPartsFrom false [] (Chars.trim text.toList)
  let name := (Chars.join [' '] (parts.map StepPart.nameWord)).filter (· != '\x27')
  ⟨String.ofList (titleChars name), (parts.filterMap StepPart.value?).map String.ofList⟩

end SuiteMigration.Keyword
