import SuiteMigration.Java.Argument
import SuiteMigration.Java.Literal
import SuiteMigration.Java.Outline
import SuiteMigration.Keyword.Name
import SuiteMigration.Robot.Cell

/-!
Arguments of keyword calls. A source expression is converted to a cell: literals to their value,
names to variables, concatenations part by part. An expression without a counterpart is copied as
text and marked as not exact.
-/

set_option autoImplicit false
set_option relaxedAutoImplicit false

namespace SuiteMigration.Robot

open SuiteMigration.Text SuiteMigration.Java SuiteMigration.Keyword

structure Argument where
  text : String
  /-- Whether the cell has the value of the source expression. -/
  exact : Bool
  deriving DecidableEq, Repr

/-- The control character that also separates operands. -/
def operandSeparator : Char :=
  Char.ofNat 0x1F

/-- The control character that also separates list items. -/
def itemSeparator : Char :=
  Char.ofNat 0x1E

/-- Cuts an expression at the plus signs outside literals and parentheses. There is no result if it
has a comma there. `current` is the operand being read, last character first. -/
def operandsFrom : Quotation → Int → List Char → List Char → Option (List (List Char))
  | _, _, current, [] => some [current.reverse]
  | q, depth, current, c :: rest =>
      let free := q == .outside && depth == 0
      let next := q.next (· == '"') c
      if c == itemSeparator || (free && c == ',') then none
      else if c == operandSeparator || (free && c == '+') then
        (operandsFrom next depth [] rest).map (current.reverse :: ·)
      else
        let depth :=
          if q == .outside then
            if c == '(' then depth + 1 else if c == ')' then depth - 1 else depth
          else depth
        operandsFrom next depth (c :: current) rest

/-- The operands of a concatenation, without blank ones. An expression with a free comma is its own
only operand. -/
def operands (cs : List Char) : List (List Char) :=
  match operandsFrom .outside 0 [] cs with
  | none => [cs]
  | some parts => (parts.map Chars.trim).filter fun part ↦ !part.isEmpty

def isConcatenation (cs : List Char) : Bool :=
  decide (1 < (operands cs).length)

/-- A name: a letter or underscore, then letters, numbers and underscores. -/
def isName (text : List Char) : Bool :=
  match text with
  | c :: rest => (isAlphabetic c || c == '_') && rest.all isNameChar
  | [] => false

/-- Whether a name is written like a constant. -/
def isConstantName (text : List Char) : Bool :=
  text.all fun c ↦ isUppercase c || isAsciiDigit c || c == '_'

/-- The variable for a qualified name. A constant of a class is known by its own name. -/
def qualifiedName? (cs : List Char) : Option String :=
  let parts := Chars.splitOn '.' cs
  match parts with
  | _ :: _ :: _ =>
      if parts.all isName then
        let last := parts.getLastD []
        some (scalar (String.ofList (if isConstantName last then last else cs)))
      else none
  | _ => none

/-- Converts a trimmed expression that is no concatenation. -/
def convertOperand (cs : List Char) : Argument :=
  let expr := String.ofList cs
  if isQuoted cs then ⟨String.ofList (escapeChars (unescapeChars (inner cs))), true⟩
  else if expr == "true" then ⟨scalar "True", true⟩
  else if expr == "false" then ⟨scalar "False", true⟩
  else if expr == "null" then ⟨scalar "None", true⟩
  else if isNumberLiteral expr then ⟨withoutNumberSuffix expr, true⟩
  else
    let name := (Chars.afterStart? "this.".toList cs).getD cs
    if isName name then ⟨scalar (String.ofList name), true⟩
    else
      match qualifiedName? name with
      | some reference => ⟨reference, true⟩
      | none => ⟨String.ofList (escapeChars (Chars.collapse cs)), false⟩

/-- The cell of a concatenation: the cells of its operands one after the other. -/
def joinArguments (parts : List Argument) : Argument :=
  let text := String.join (parts.map fun part ↦ if part.text == emptyCell then "" else part.text)
  ⟨if text.isEmpty then emptyCell else text, parts.all Argument.exact⟩

/-- Converts an expression with at most `fuel` levels of concatenation. -/
def convertWithin : Nat → List Char → Argument
  | 0, cs => convertOperand (Chars.trim cs)
  | fuel + 1, cs =>
      let expr := Chars.trim cs
      if isConcatenation expr then joinArguments ((operands expr).map (convertWithin fuel))
      else convertOperand expr

/-- Converts a source expression to a cell. Operands are shorter than their concatenation, so its
length bounds the levels. -/
def convert (expr : String) : Argument :=
  convertWithin expr.length expr.toList

/-- The cells for an argument list. -/
def argumentCells (args : String) : List String :=
  (splitArguments args).map fun arg ↦ (convert arg).text

/-- The time for an expression of milliseconds, in whole seconds where it is a number of them. -/
def sleepTime (millis : String) : String :=
  let trimmed := dropEndWhile (fun c ↦ c == 'L' || c == 'l') (trim millis)
  match unsignedBelow? (Nat.pow 2 64) trimmed with
  | some ms => if ms % 1000 == 0 then s!"{ms / 1000}s" else s!"{ms}ms"
  | none => (convert trimmed).text ++ "ms"

end SuiteMigration.Robot
