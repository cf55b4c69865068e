import SuiteMigration.Keyword.Name
import SuiteMigration.Robot.Cell
import SuiteMigration.Robot.Marker

/-!
Keyword files and how they are written.
-/

set_option autoImplicit false
set_option relaxedAutoImplicit false

namespace SuiteMigration.Robot

open SuiteMigration.Text SuiteMigration.Keyword

/-- A keyword or a test case. -/
structure Block where
  name : String
  args : List String := []
  documentation : Option String := none
  tags : List String := []
  body : List String := []
  deriving DecidableEq, Repr

structure Variable where
  name : String
  value : String
  comment : Option String := none
  deriving DecidableEq, Repr

structure File where
  marker : Option Marker := none
  /-- Comment lines between the marker and the first section. -/
  header : List String := []
  documentation : List String := []
  settings : List String := []
  declarations : List Variable := []
  testCases : List Block := []
  keywords : List Block := []
  deriving DecidableEq, Repr

/-- The rows of a body that are not blank; an empty body does nothing. -/
def Block.bodyRows (b : Block) : List String :=
  let rows := b.body.filter fun line ↦ !isBlankText line
  if rows.isEmpty then ["No Operation"] else rows

/-- The lines of a block: its name, and its rows indented. -/
def Block.lines (b : Block) : List String :=
  let settings :=
    (if b.args.isEmpty then [] else [row ("[Arguments]" :: b.args)]) ++
    (match b.documentation with
     | some text => [row ["[Documentation]", text]]
     | none => []) ++
    (if b.tags.isEmpty then [] else [row ("[Tags]" :: b.tags)])
  b.name :: (settings ++ b.bodyRows).map (separator ++ ·)

/-- The lines of blocks with an empty line between two of them. -/
def blockLines : List Block → List String
  | [] => []
  | [b] => b.lines
  | b :: rest => b.lines ++ "" :: blockLines rest

/-- Documentation on one line; empty documentation is written as a variable. -/
def documentationCell (text : String) : String :=
  escapeCell (collapse text)

/-- The rows of a documentation setting. -/
def documentationRows : List String → List String
  | [] => []
  | first :: rest =>
      row ["Documentation", documentationCell first] ::
        rest.map fun text ↦ row ["...", documentationCell text]

def Variable.line (v : Variable) : String :=
  row [scalar v.name, v.value] ++
    (match v.comment with
     | some text => separator ++ "# " ++ text
     | none => "")

/-- A section that is left out when it has no lines. -/
def optionalSection (name : String) (content : List String) : List String :=
  if content.isEmpty then [] else "" :: ("*** " ++ name ++ " ***") :: content

def File.lines (f : File) : List String :=
  (f.marker.toList.map Marker.render) ++ f.header ++
    "*** Settings ***" :: documentationRows f.documentation ++ f.settings ++
    optionalSection "Variables" (f.declarations.map Variable.line) ++
    optionalSection "Test Cases" (blockLines f.testCases) ++
    optionalSection "Keywords" (blockLines f.keywords)

/-- The text of a file: every line with its line feed. -/
def File.render (f : File) : String :=
  String.join (f.lines.map (· ++ "\n"))

/-- Second line of documentation in every generated file. -/
def generatedNote (mode : Mode) (tier : Nat) : String :=
  s!"Generated by robomigrate; mode={mode.label}, tier={tier}."

end SuiteMigration.Robot
