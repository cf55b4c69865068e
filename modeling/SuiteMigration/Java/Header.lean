import SuiteMigration.Assoc
import SuiteMigration.Java.Argument
import SuiteMigration.Java.Delimiter
import SuiteMigration.Java.Literal
import SuiteMigration.Text.Quoted

/-!
Annotations in the header of a declaration, and the failures that reading a declaration can end in.
-/

set_option autoImplicit false
set_option relaxedAutoImplicit false

namespace SuiteMigration.Java

open SuiteMigration.Text

/-- Why a source cannot be outlined. -/
inductive OutlineError where
  /-- A brace block is never closed; the text names what it follows. -/
  | unclosedBlock (header : String)
  | unclosedArguments (name : String)
  /-- A method name directly follows a symbol outside ASCII, so it has no readable start. The text
  stands before the symbol. -/
  | unreadableName (before : String) (symbol : Char)
  deriving DecidableEq, Repr

def OutlineError.message : OutlineError → String
  | .unclosedBlock header => s!"unterminated block after '{header}'"
  | .unclosedArguments name => s!"unterminated annotation '@{name}'"
  | .unreadableName before symbol =>
      let start := byteSize before
      s!"start byte index {start + 1} is not a char boundary; it is inside {quotedChar symbol}" ++
        s!" (bytes {start}..{start + symbol.utf8Size} of string)"

/-- One use of an annotation. -/
structure AnnotationUse where
  name : String
  /-- The text between the parentheses; empty without parentheses. -/
  args : String
  deriving DecidableEq, Repr

/-- A character of a simple name. -/
def isNameChar (c : Char) : Bool :=
  isAlphanumeric c || c == '_'

/-- The value of the first string literal among the arguments. -/
def AnnotationUse.literal? (a : AnnotationUse) : Option String :=
  firstLiteral? a.args

/-- The arguments of the form `key = value`, sorted by key. -/
def AnnotationUse.namedArgs (a : AnnotationUse) : Assoc String :=
  (splitArguments a.args).foldl (fun pairs arg ↦
    match breakOn? "=" arg with
    | some (key, value) => Assoc.insert (trim key) (trim value) pairs
    | none => pairs) []

/-- Cuts a text after the string literal with which it starts; a literal that is never closed takes
all of it. -/
def literalCut : List Char → Cut
  | [] => ⟨[], []⟩
  | '"' :: rest => ⟨['"'], rest⟩
  | '\\' :: c :: rest => ((literalCut rest).push c).push '\\'
  | c :: rest => (literalCut rest).push c

/-- What follows the last point of a qualified name. -/
def simpleName (cs : List Char) : List Char :=
  (cs.reverse.takeWhile (· != '.')).reverse

/-- One annotation, after its `@`, and the text after it. -/
def readAnnotationUse (cs : List Char) : Except OutlineError (AnnotationUse × List Char) :=
  let isPart := fun c ↦ isNameChar c || c == '.'
  let name := String.ofList (simpleName (cs.takeWhile isPart))
  let rest := cs.dropWhile isPart
  match Chars.trimStart rest with
  | '(' :: inside =>
      match enclosed? '(' ')' ('(' :: inside) with
      | some cut => .ok (⟨name, String.ofList (Chars.trim cut.before)⟩, cut.after)
      | none => .error (.unclosedArguments name)
  | _ => .ok (⟨name, ""⟩, rest)

/-- Reads a header from left to right. Text outside annotations and literals is collected in
`rest`, last character first; `fuel` bounds the number of steps. -/
def annotationsFrom : Nat → List AnnotationUse → List Char → List Char →
    Except OutlineError (List AnnotationUse × List Char)
  | 0, found, rest, _ => .ok (found.reverse, rest.reverse)
  | _ + 1, found, rest, [] => .ok (found.reverse, rest.reverse)
  | fuel + 1, found, rest, c :: cs =>
      if c == '"' then
        let cut := literalCut cs
        annotationsFrom fuel found (cut.before.reverse ++ c :: rest) cut.after
      else if c == '@' then do
        let (item, after) ← readAnnotationUse cs
        annotationsFrom fuel (item :: found) rest after
      else annotationsFrom fuel found (c :: rest) cs

/-- A declaration header cut into its annotations and the remaining words. -/
structure Header where
  annotations : List AnnotationUse
  rest : String
  deriving DecidableEq, Repr

def splitAnnotations (header : String) : Except OutlineError Header := do
  let cs := header.toList
  let (annotations, rest) ← annotationsFrom (cs.length + 1) [] [] cs
  return ⟨annotations, String.ofList (Chars.collapse rest)⟩

/-- Removes repeated occurrences of `start` at the beginning. -/
def dropStarts (start : List Char) : Nat → List Char → List Char
  | 0, cs => cs
  | fuel + 1, cs =>
      match Chars.afterStart? start cs with
      | some rest => dropStarts start fuel rest
      | none => cs

/-- The name that a parameter declaration ends with. -/
def parameterName? (declaration : String) : Option String :=
  match splitAnnotations declaration with
  | .error _ => none
  | .ok header =>
      match (words header.rest).getLast? with
      | none => none
      | some word =>
          let name := dropStarts ['.', '.', '.'] word.length word.toList
          if name.isEmpty then none else some (String.ofList name)

/-- The names of the parameters of a method. -/
def parameterNames (params : String) : List String :=
  (splitArguments params).filterMap parameterName?

end SuiteMigration.Java
