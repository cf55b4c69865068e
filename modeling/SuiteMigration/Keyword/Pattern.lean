import SuiteMigration.Keyword.Name
import SuiteMigration.Text.Occurrence

/-!
Keyword names for step patterns. A pattern is a regular expression or an expression with typed
parameters; each parameter becomes a word that says what it stands for, anchors and quotes are
dropped, and the words are put in title case.
-/

set_option autoImplicit false
set_option relaxedAutoImplicit false

namespace SuiteMigration.Keyword

open SuiteMigration.Text

structure PatternName where
  name : String
  /-- Number of parameters of the pattern. -/
  placeholders : Nat
  deriving DecidableEq, Repr

/-- The length of a literal text at a position. -/
def literal (text : List Char) : Recogniser := fun _ cs ↦
  if Chars.startsWith cs text then some text.length else none

/-- A text that starts with `opening`, runs up to the first `stop`, and ends with `closing`, whose
first character is `stop`. -/
def delimited (opening : List Char) (stop : Char) (closing : List Char) : Recogniser :=
    fun _ cs ↦ do
  let rest ← Chars.afterStart? opening cs
  let inside := rest.takeWhile (· != stop)
  if Chars.startsWith (rest.drop inside.length) closing then
    some (opening.length + inside.length + closing.length)
  else none

/-- The first recogniser that applies. -/
def anyOf (recognisers : List Recogniser) : Recogniser := fun before cs ↦
  recognisers.findSome? fun recognise ↦ recognise before cs

/-- A group of a regular expression that starts with a digit class, perhaps after an optional
minus sign. -/
def numberGroup : Recogniser := fun _ cs ↦ do
  let rest ← Chars.afterStart? ['('] cs
  let unsigned := (Chars.afterStart? ['-', '?'] rest).getD rest
  let tail ←
    match Chars.afterStart? ['\\', 'd'] unsigned with
    | some tail => some tail
    | none => Chars.afterStart? ['[', '0', '-', '9', ']'] unsigned
  let inside := tail.takeWhile (· != ')')
  if (tail.drop inside.length).head? == some ')' then
    some (cs.length - tail.length + inside.length + 1)
  else none

/-- A typed parameter such as `int` between braces. -/
def typed (type : String) : Recogniser :=
  literal ("\x7b" ++ type ++ "\x7d").toList

/-- The kinds of parameters and the words that stand for them. They are replaced in this order:
quoted groups before bare groups, typed parameters before the untyped one. -/
def placeholders : List (Recogniser × String) :=
  [(delimited ['"', '('] ')' [')', '"'], "text"),
   (delimited ['\x27', '('] ')' [')', '\x27'], "text"),
   (typed "string", "text"),
   (anyOf (["int", "float", "double", "long", "short", "byte", "biginteger", "bigdecimal"].map
      typed), "number"),
   (typed "word", "word"),
   (delimited ['\x7b'] '\x7d' ['\x7d'], "value"),
   (numberGroup, "number"),
   (delimited ['('] ')' [')'], "value")]

/-- A parameter of an expression: a name, perhaps empty, between braces. -/
def expressionParameter : Recogniser := fun _ cs ↦ do
  let rest ← Chars.afterStart? ['\x7b'] cs
  let name := rest.takeWhile isWordChar
  if (rest.drop name.length).head? == some '\x7d' then some (name.length + 2) else none

/-- A pattern with typed parameters and without the anchors of a regular expression. -/
def isExpression (cs : List Char) : Bool :=
  cs.head? != some '^' && cs.getLast? != some '$' && occursIn expressionParameter none cs

/-- Optional text in parentheses, without brackets inside. -/
def optionalText : Recogniser := fun _ cs ↦ do
  let rest ← Chars.afterStart? ['('] cs
  let inside := rest.takeWhile fun c ↦ c != '(' && c != ')' && c != '\x7b' && c != '\x7d'
  if (rest.drop inside.length).head? == some ')' then some (inside.length + 2) else none

def isOptionChar (c : Char) : Bool :=
  isWordChar c || c == '-'

/-- Length of one option of an alternation: a letter, and the word characters and hyphens after
it. -/
def optionLength? (cs : List Char) : Option Nat :=
  match cs with
  | c :: rest => if isAsciiLetter c then some (1 + (rest.takeWhile isOptionChar).length) else none
  | [] => none

/-- Length of the further options, each after a slash. `skip` characters belong to an option that
has been counted. -/
def furtherOptions : Nat → List Char → Nat
  | _, [] => 0
  | skip + 1, _ :: rest => furtherOptions skip rest
  | 0, c :: rest =>
      if c == '/' then
        match optionLength? rest with
        | some n => 1 + n + furtherOptions n rest
        | none => 0
      else 0

/-- Two or more words separated by slashes, at the start of a word. -/
def alternation : Recogniser := fun before cs ↦
  if atWordStart before then
    match optionLength? cs with
    | some n =>
        let more := furtherOptions 0 (cs.drop n)
        if more == 0 then none else some (n + more)
    | none => none
  else none

/-- Resolves what only an expression has: optional text is kept, and of alternatives the first. -/
def resolveExpression (cs : List Char) : List Char :=
  let kept := replaceOccurrences optionalText (fun text ↦ text.tail.dropLast) cs
  replaceOccurrences alternation (fun text ↦ text.takeWhile (· != '/')) kept

/-- Replaces one kind of parameter, counting the replacements. -/
def replacePlaceholder (state : List Char × Nat) (kind : Recogniser × String) :
    List Char × Nat :=
  let (text, count) := state
  let (recognise, word) := kind
  (replaceOccurrences recognise (fun _ ↦ (" " ++ word ++ " ").toList) text,
   count + (occurrences recognise text).length)

/-- Symbols of regular expressions, which separate words. -/
def isPatternSymbol (c : Char) : Bool :=
  c == '^' || c == '$' || c == '\\' || c == '?' || c == '*' || c == '+' || c == '[' || c == ']' ||
    c == '(' || c == ')' || c == '|'

/-- Drops quotes and turns the symbols of regular expressions into spaces. -/
def cleanPattern (cs : List Char) : List Char :=
  (cs.filter fun c ↦ c != '"' && c != '\x27').map fun c ↦ if isPatternSymbol c then ' ' else c

/-- The keyword name for a step pattern. -/
def ofPattern (pattern : String) : PatternName :=
  let trimmed := Chars.trim pattern.toList
  let start := if isExpression trimmed then resolveExpression trimmed else trimmed
  let (text, count) := placeholders.foldl replacePlaceholder (start, 0)
  ⟨String.ofList (titleChars (cleanPattern text)), count⟩

end SuiteMigration.Keyword
