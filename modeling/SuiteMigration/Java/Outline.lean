import SuiteMigration.Java.Header
import SuiteMigration.Java.Comment
import SuiteMigration.Text.Occurrence

/-!
The outline of a class: its name, and its fields and methods in order. A semicolon outside blocks
closes a field, an opening brace opens a method whose body is the brace block.
-/

set_option autoImplicit false
set_option relaxedAutoImplicit false

namespace SuiteMigration.Java

open SuiteMigration.Text

structure Method where
  name : String
  params : List String
  body : String
  annotations : List AnnotationUse
  isPublic : Bool
  isConstructor : Bool
  deriving DecidableEq, Repr

structure Field where
  annotations : List AnnotationUse
  /-- The declaration without its annotations. -/
  declaration : String
  deriving DecidableEq, Repr

/-- The declaration before its initializer. -/
def Field.declarator (f : Field) : String :=
  match breakOn? "=" f.declaration with
  | some (before, _) => before
  | none => f.declaration

/-- The declared name: the last word before the initializer, without symbols around it. -/
def Field.name? (f : Field) : Option String :=
  match (words f.declarator).getLast? with
  | none => none
  | some word =>
      let symbol := fun c ↦ !isNameChar c
      let name := dropEndWhile symbol (dropStartWhile symbol word)
      if name.isEmpty then none else some name

def Field.initializer? (f : Field) : Option String :=
  (breakOn? "=" f.declaration).map fun (_, value) ↦ trim value

/-- The word before the declared name. -/
def Field.typeName? (f : Field) : Option String :=
  match (words f.declarator).reverse with
  | _ :: type :: _ => some type
  | _ => none

inductive Member where
  | field (f : Field)
  | method (m : Method)
  deriving DecidableEq, Repr

structure Outline where
  name : Option String
  members : List Member
  deriving DecidableEq, Repr

def Outline.methods (o : Outline) : List Method :=
  o.members.filterMap fun
    | .method m => some m
    | .field _ => none

def Outline.fields (o : Outline) : List Field :=
  o.members.filterMap fun
    | .field f => some f
    | .method _ => none

def controlKeywords : List String :=
  ["if", "for", "while", "switch", "catch", "synchronized", "try", "do", "else", "return", "new"]

def isControlKeyword (word : String) : Bool :=
  controlKeywords.contains word

/-- A header on one line, cut at sixty characters. -/
def shortHeader (header : String) : String :=
  let line := collapse header
  if 60 < line.length then takeChars 60 line ++ "..." else line

/-- The method that a block header declares. A header with an initializer, of a nested type, without
parameters or named like a control keyword declares none. -/
def methodOf? (header : String) (body : String) (annotations : List AnnotationUse)
    (className : Option String) : Except OutlineError (Option Method) :=
  if contains header "=" || contains header "class " || contains header "interface " then .ok none
  else
    match breakCode? (· == '(') header.toList with
    | none => .ok none
    | some (before, _, after) =>
        match enclosed? '(' ')' ('(' :: after) with
        | none => .ok none
        | some params =>
            let reversed := (Chars.trimEnd before).reverse
            let name := String.ofList (reversed.takeWhile isNameChar).reverse
            let modifiers := reversed.dropWhile isNameChar
            match modifiers.head?.filter fun c ↦ !isAscii c with
            | some symbol =>
                .error (.unreadableName (String.ofList modifiers.tail.reverse) symbol)
            | none =>
                if name.isEmpty || isControlKeyword name then .ok none
                else
                  .ok (some
                    { name, params := parameterNames (String.ofList params.before), body,
                      annotations,
                      isPublic := (words (String.ofList modifiers.reverse)).contains "public",
                      isConstructor := className == some name })

/-- Reads the next member of a class body: what it adds to the members, and the text after it. -/
def readMember (className : Option String) (before : List Char) (closer : Char)
    (after : List Char) : Except OutlineError (List Member × List Char) := do
  let header := String.ofList (Chars.trim (stripCommentChars before))
  if closer == ';' then
    if header.isEmpty then return ([], after)
    let ⟨annotations, rest⟩ ← splitAnnotations header
    if startsWith rest "import " || startsWith rest "package " then return ([], after)
    return ([.field ⟨annotations, rest⟩], after)
  else
    match enclosed? '\x7b' '\x7d' (closer :: after) with
    | none => throw (.unclosedBlock (shortHeader header))
    | some block =>
        let ⟨annotations, rest⟩ ← splitAnnotations header
        let method ← methodOf? rest (String.ofList block.before) annotations className
        return (method.toList.map .method, block.after)

/-- The members of a class body; `fuel` bounds their number. -/
def membersFrom (className : Option String) : Nat → List Char →
    Except OutlineError (List Member)
  | 0, _ => .ok []
  | fuel + 1, cs =>
      match breakCode? (fun c ↦ c == ';' || c == '\x7b') cs with
      | none => .ok []
      | some (before, closer, after) => do
          let (members, rest) ← readMember className before closer after
          return members ++ (← membersFrom className fuel rest)

def members (className : Option String) (body : List Char) : Except OutlineError (List Member) :=
  membersFrom className (body.length + 1) body

def isIdentifierStart (c : Char) : Bool :=
  isAsciiLetter c || c == '_'

/-- An identifier with which the text starts, and what follows it. -/
def identifier? (cs : List Char) : Option (List Char × List Char) :=
  match cs with
  | c :: rest =>
      if isIdentifierStart c then some (c :: rest.takeWhile isWordChar, rest.dropWhile isWordChar)
      else none
  | [] => none

/-- At least one white space character, and the text after all of them. -/
def skipBlanks? (cs : List Char) : Option (List Char) :=
  match cs with
  | c :: rest => if isBlank c then some (Chars.trimStart rest) else none
  | [] => none

/-- The declaration of a type at the start of a text: its name, and what follows the name. -/
def typeDeclaration? (cs : List Char) : Option (List Char × List Char) :=
  ["class", "enum", "interface", "record"].findSome? fun keyword ↦ do
    identifier? (← skipBlanks? (← Chars.afterStart? keyword.toList cs))

/-- The first type declaration of a source. -/
def findType? : Option Char → List Char → Option (List Char × List Char)
  | _, [] => none
  | before, c :: rest =>
      let here := if atWordStart before then typeDeclaration? (c :: rest) else none
      match here with
      | some found => some found
      | none => findType? (some c) rest

/-- The outline of the first type of a source. A source without a type that opens a block is read
as a class body itself. -/
def outlineChars (cs : List Char) : Except OutlineError Outline :=
  let declared := do
    let (name, after) ← findType? none cs
    let (_, _, inside) ← breakCode? (· == '\x7b') after
    return (String.ofList name, inside)
  match declared with
  | some (name, inside) =>
      match enclosed? '\x7b' '\x7d' ('\x7b' :: inside) with
      | none => .error (.unclosedBlock s!"class {name}")
      | some block => do return ⟨some name, ← members (some name) block.before⟩
  | none => do return ⟨none, ← members none cs⟩

def outline (source : String) : Except OutlineError Outline :=
  outlineChars source.toList

/-- A step annotation with arguments at the start of a text. -/
def isStepAnnotation (cs : List Char) : Bool :=
  ["@Given", "@When", "@Then", "@And", "@But"].any fun name ↦
    match Chars.afterStart? name.toList cs with
    | some rest => (Chars.trimStart rest).head? == some '('
    | none => false

/-- Whether a source has a step annotation with arguments anywhere. -/
def hasStepAnnotations (source : String) : Bool :=
  occursIn (fun _ cs ↦ if isStepAnnotation cs then some 1 else none) none source.toList

end SuiteMigration.Java
