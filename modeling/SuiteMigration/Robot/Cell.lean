import SuiteMigration.Text.Basic

/-!
Cells of keyword files. A cell is written so that reading it gives the same text back: line feeds,
tabs, backslashes and variable markers are escaped, and spaces that a reader would drop are written
as a variable. Rows are cells separated by four spaces.
-/

set_option autoImplicit false
set_option relaxedAutoImplicit false

namespace SuiteMigration.Robot

open SuiteMigration.Text

/-- The cell that stands for the empty text. -/
def emptyCell : String :=
  "$\x7bEMPTY\x7d"

def spaceCell : String :=
  "$\x7bSPACE\x7d"

/-- A character that starts a variable when an opening brace follows. -/
def isVariableMarker (c : Char) : Bool :=
  c == '$' || c == '@' || c == '&' || c == '%'

/-- Escapes a character, given whether it is the first of the cell and what follows it. -/
def escapeChar (isFirst : Bool) (c : Char) (rest : List Char) : List Char :=
  if c == '\\' then ['\\', '\\']
  else if c == '\n' then ['\\', 'n']
  else if c == '\t' then ['\\', 't']
  else if c == '#' && isFirst then ['\\', '#']
  else if isVariableMarker c && rest.head? == some '\x7b' then ['\\', c]
  else if c == ' ' && (isFirst || rest.isEmpty || rest.head? == some ' ') then spaceCell.toList
  else [c]

def escapeFrom : Bool → List Char → List Char
  | _, [] => []
  | isFirst, c :: rest => escapeChar isFirst c rest ++ escapeFrom false rest

def escapeChars (cs : List Char) : List Char :=
  if cs.isEmpty then emptyCell.toList else escapeFrom true cs

/-- The cell for a literal text. -/
def escapeCell (text : String) : String :=
  String.ofList (escapeChars text.toList)

/-- The text that an escape in a cell stands for. -/
def unescapedChar? (c : Char) : Option Char :=
  if c == '\\' || c == '#' || isVariableMarker c then some c
  else if c == 'n' then some '\n'
  else if c == 't' then some '\t'
  else none

/-- Reads the inside of a cell; `skip` characters belong to a variable that has been read. -/
def decodeFrom : Nat → List Char → List Char
  | _, [] => []
  | skip + 1, _ :: rest => decodeFrom skip rest
  | 0, c :: rest =>
      if c == '\\' then
        match rest with
        | next :: _ =>
            match unescapedChar? next with
            | some image => image :: decodeFrom 1 rest
            | none => c :: decodeFrom 0 rest
        | [] => [c]
      else if Chars.startsWith (c :: rest) spaceCell.toList then
        ' ' :: decodeFrom (spaceCell.length - 1) rest
      else c :: decodeFrom 0 rest

/-- The literal text of a cell. -/
def decodeCell (cell : String) : String :=
  if cell == emptyCell then "" else String.ofList (decodeFrom 0 cell.toList)

/-- What separates the cells of a row. -/
def separator : String :=
  "    "

def row (cells : List String) : String :=
  String.intercalate separator cells

end SuiteMigration.Robot
