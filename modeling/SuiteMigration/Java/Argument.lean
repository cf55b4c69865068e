import SuiteMigration.Text.Basic

/-!
Argument lists. The list is cut at the commas that are outside literals and not inside brackets of
any kind; angle brackets count as brackets.
-/

set_option autoImplicit false
set_option relaxedAutoImplicit false

namespace SuiteMigration.Java

/-- Where a reader of expressions stands with respect to quoted literals. -/
inductive Quotation where
  | outside
  | inside (quote : Char)
  | escaped (quote : Char)
  deriving DecidableEq, Repr

/-- The state after one more character. -/
def Quotation.next (isQuote : Char → Bool) (q : Quotation) (c : Char) : Quotation :=
  match q with
  | .outside => if isQuote c then .inside c else .outside
  | .inside quote =>
      if c == '\\' then .escaped quote else if c == quote then .outside else .inside quote
  | .escaped quote => .inside quote

def isOpenBracket (c : Char) : Bool :=
  c == '(' || c == '[' || c == '\x7b' || c == '<'

def isCloseBracket (c : Char) : Bool :=
  c == ')' || c == ']' || c == '\x7d' || c == '>'

/-- Cuts an argument list; `current` is the argument being read, last character first. The last
argument counts only if it is not blank. -/
def argumentsFrom : Quotation → Int → List Char → List Char → List (List Char)
  | _, _, current, [] =>
      let last := Chars.trim current.reverse
      if last.isEmpty then [] else [last]
  | q, depth, current, c :: rest =>
      if q == .outside && c == ',' && depth ≤ 0 then
        Chars.trim current.reverse :: argumentsFrom .outside depth [] rest
      else
        let depth :=
          if q == .outside then
            if isOpenBracket c then depth + 1 else if isCloseBracket c then depth - 1 else depth
          else depth
        argumentsFrom (q.next (fun c ↦ c == '"' || c == '\x27') c) depth (c :: current) rest

def splitArgumentChars (cs : List Char) : List (List Char) :=
  argumentsFrom .outside 0 [] cs

def splitArguments (text : String) : List String :=
  (splitArgumentChars text.toList).map String.ofList

end SuiteMigration.Java
