import SuiteMigration.Text.Basic
import SuiteMigration.Text.Occurrence

/-!
Lines of keyword files as a reader sees them: cells, comments and section headers.
-/

set_option autoImplicit false
set_option relaxedAutoImplicit false

namespace SuiteMigration.Robot

open SuiteMigration.Text

/-- What separates cells: tabs, two or more spaces, or a bar between white space. -/
def cellSeparator : Recogniser := fun _ cs ↦
  let tabs := (cs.takeWhile (· == '\t')).length
  let spaces := (cs.takeWhile (· == ' ')).length
  if 0 < tabs then some tabs
  else if 2 ≤ spaces then some spaces
  else
    let before := (cs.takeWhile isBlank).length
    match cs.drop before with
    | '|' :: rest =>
        let after := (rest.takeWhile isBlank).length
        if 0 < before && 0 < after then some (before + 1 + after) else none
    | _ => none

/-- The cells of a row. Indentation gives an empty first cell, a blank line has no cells. -/
def splitCells (line : String) : List String :=
  let cs := Chars.trimEnd line.toList
  if cs.isEmpty then [] else (splitAtOccurrences cellSeparator cs).map String.ofList

def isStar (c : Char) : Bool :=
  c == '*'

/-- The name in a section header, in lower case and without a plural ending. -/
def sectionName? (line : String) : Option String :=
  match Chars.trim line.toList with
  | '*' :: rest =>
      let inside := Chars.trimStart (rest.dropWhile isStar)
      let name := Chars.trimEnd (Chars.dropEndWhile isStar inside)
      if name.head?.any isAsciiLetter && name.all (fun c ↦ isAsciiLetter c || c == ' ') then
        let lower := toLower (String.ofList (Chars.collapse name))
        some ((beforeEnd? "s" lower).getD lower)
      else none
  | _ => none

def isHeader (line : String) : Bool :=
  (sectionName? line).isSome

def isComment (line : String) : Bool :=
  (Chars.trimStart line.toList).head? == some '#'

/-- Sections whose rows call keywords. -/
def isBodySection (name : String) : Bool :=
  name == "keyword" || name == "test case" || name == "task"

/-- A row of a file: a line that is neither blank nor a comment nor a header. -/
structure SectionRow where
  /-- Number of the line, from one. -/
  number : Nat
  /-- Name in the nearest header above; empty before the first header. -/
  sectionName : String
  text : String
  deriving DecidableEq, Repr

/-- The rows of lines that start with line `number` in a section. -/
def rowsFrom : Nat → String → List String → List SectionRow
  | _, _, [] => []
  | number, name, line :: rest =>
      match sectionName? line with
      | some next => rowsFrom (number + 1) next rest
      | none =>
          if isComment line || isBlankText line then rowsFrom (number + 1) name rest
          else ⟨number, name, line⟩ :: rowsFrom (number + 1) name rest

def sectionRows (content : String) : List SectionRow :=
  rowsFrom 1 "" (lines content)

end SuiteMigration.Robot
