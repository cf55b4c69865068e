import SuiteMigration.Java.Region
import SuiteMigration.Text.Basic

/-!
Statements of a method body. A statement ends at a semicolon or brace in code that is outside
parentheses and outside an array initializer. Comments are dropped, and a block opener that carries
no statement of its own, such as `else`, is none.
-/

set_option autoImplicit false
set_option relaxedAutoImplicit false

namespace SuiteMigration.Java

open SuiteMigration.Text

structure Statement where
  /-- Byte position of the first character of the statement in its body. -/
  offset : Nat
  text : String
  deriving DecidableEq, Repr

/-- The statement being read. -/
structure Pending where
  /-- Its text so far, last character first. -/
  text : List Char := []
  start : Option Nat := none
  parens : Nat := 0
  /-- Depth inside an array initializer. -/
  braces : Nat := 0

/-- Words that open a block without being a statement. -/
def bareBlockWords : List String :=
  ["else", "try", "do", "finally"]

/-- The statement that ends here, if there is one. -/
def Pending.statement? (p : Pending) : Option Statement :=
  let text := String.ofList (Chars.trim p.text.reverse)
  if text.isEmpty || bareBlockWords.contains text then none
  else some ⟨p.start.getD 0, text⟩

/-- Whether a brace that follows opens an array initializer. -/
def Pending.opensInitializer (p : Pending) : Bool :=
  match p.text.dropWhile isBlank with
  | '=' :: _ => true
  | ']' :: '[' :: _ => true
  | _ => false

/-- Whether a code character ends the statement. -/
def Pending.endsAt (p : Pending) (c : Char) : Bool :=
  (c == ';' || c == '\x7b' || c == '\x7d') && p.parens == 0 && p.braces == 0 &&
    !(c == '\x7b' && p.opensInitializer)

/-- The bracket depths after a code character that does not end the statement. -/
def Pending.nest (p : Pending) (c : Char) : Pending :=
  if c == '(' then { p with parens := p.parens + 1 }
  else if c == ')' then { p with parens := p.parens - 1 }
  else if c == '\x7b' && 0 < p.braces then { p with braces := p.braces + 1 }
  else if c == '\x7d' && 0 < p.braces then { p with braces := p.braces - 1 }
  else if c == '\x7b' && p.parens == 0 && p.opensInitializer then { p with braces := 1 }
  else p

def Pending.push (p : Pending) (c : Char) : Pending :=
  { p with text := c :: p.text }

def Pending.begin (p : Pending) (offset : Nat) : Pending :=
  { p with start := some (p.start.getD offset) }

/-- The statements of a body from a mark at byte `offset` on. -/
def statementsFrom : Nat → Pending → List Mark → List Statement
  | _, p, [] => p.statement?.toList
  | offset, p, mark :: rest =>
      let next := offset + mark.char.utf8Size
      match mark.kind with
      | .comment => statementsFrom next p rest
      | .lineEnd | .blockEnd => statementsFrom next (p.push ' ') rest
      | .literal => statementsFrom next ((p.begin offset).push mark.char) rest
      | .code =>
          if p.endsAt mark.char then p.statement?.toList ++ statementsFrom next {} rest
          else
            let nested := p.nest mark.char
            let begun := if isAsciiBlank mark.char then nested else nested.begin offset
            statementsFrom next (begun.push mark.char) rest

/-- The statements of a method body, in order. Inside a text block a backslash is an ordinary
character here. -/
def statements (body : String) : List Statement :=
  statementsFrom 0 {} (marksFrom false .code body.toList)

end SuiteMigration.Java
