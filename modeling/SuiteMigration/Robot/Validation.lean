import SuiteMigration.Java.Outline
import SuiteMigration.Robot.Line

/-!
Checks of keyword files: a section with keywords or tests, an import of an automation library, at
least one action, and no source syntax left over. The result is a report; nothing is refused.
-/

set_option autoImplicit false
set_option relaxedAutoImplicit false

namespace SuiteMigration.Robot

open SuiteMigration.Text SuiteMigration.Java

structure Report where
  issues : List String
  deriving DecidableEq, Repr

def Report.isValid (r : Report) : Bool :=
  r.issues.isEmpty

def recognizedLibraries : List String :=
  ["SeleniumLibrary", "Browser", "AppiumLibrary", "RequestsLibrary"]

/-- Keywords that drive a browser, an app or a service. -/
def actionKeywords : List String :=
  ["click element", "click button", "click link", "input text", "input password", "go to",
   "get text", "element should be visible", "element should be enabled", "element should contain",
   "wait until element is visible", "wait until element is enabled",
   "wait until element is not visible", "wait until page contains", "select from list by label",
   "select from list by value", "select from list by index", "clear element text", "go back",
   "reload page", "close browser", "close all browsers", "open browser",
   "maximize browser window", "get title", "get location", "get element attribute", "submit form",
   "page should contain", "page should contain element", "sleep", "new page", "click", "fill text",
   "get url", "open application", "tap", "create session", "get on session", "post on session",
   "get request", "post request"]

/-- How assertion keywords start. -/
def assertionStarts : List String :=
  ["should ", "run keyword and return status"]

def isActionKeyword (keyword : String) : Bool :=
  actionKeywords.contains keyword || assertionStarts.any fun start ↦ startsWith keyword start

/-- The library that an import row names. -/
def importedLibrary? (line : String) : Option String :=
  match splitCells line with
  | first :: name :: _ => if equalIgnoringAsciiCase first "library" then some (trim name) else none
  | _ => none

def fixtureSettings : List String :=
  ["suite setup", "suite teardown", "test setup", "test teardown", "task setup", "task teardown"]

/-- The keyword that a setup or teardown row runs. -/
def fixtureKeyword? (line : String) : Option String :=
  match splitCells line with
  | setting :: keyword :: _ =>
      if fixtureSettings.contains (toLower setting) then some (toLower (trim keyword)) else none
  | _ => none

/-- Whether a cell of a body row comes before the called keyword. -/
def isBeforeKeyword (cell : String) : Bool :=
  cell.isEmpty || (startsWith cell "$\x7b" && endsWith cell "=") || startsWith cell "["

/-- The keyword that an indented row calls, after any assignment. -/
def calledKeyword? (line : String) : Option String :=
  match line.toList.head? with
  | some c =>
      if c == ' ' || c == '\t' then
        (((splitCells line).map trim).find? fun cell ↦ !isBeforeKeyword cell).map toLower
      else none
  | none => none

/-- A keyword that starts a text, with white space after it. -/
def afterWord? (word : String) (cs : List Char) : Option (List Char) := do
  skipBlanks? (← Chars.afterStart? word.toList cs)

/-- The text after the modifiers of a class declaration; `fuel` bounds their number. -/
def dropModifiers : Nat → List Char → List Char
  | 0, cs => cs
  | fuel + 1, cs =>
      match ["public", "private", "protected", "final", "abstract", "static"].findSome? fun word ↦
          afterWord? word cs with
      | some rest => dropModifiers fuel rest
      | none => cs

def isUpperAscii (c : Char) : Bool :=
  decide ('A' ≤ c) && decide (c ≤ 'Z')

def startsImport (cs : List Char) : Bool :=
  ((afterWord? "import" cs).bind List.head?).any fun c ↦ isWordChar c || c == '.' || c == '*'

def startsPackage (cs : List Char) : Bool :=
  ((afterWord? "package" cs).bind List.head?).any fun c ↦ isWordChar c || c == '.'

def startsClass (cs : List Char) : Bool :=
  ((afterWord? "class" (dropModifiers cs.length cs)).bind List.head?).any isUpperAscii

/-- A pattern that has to start at the start of a word. -/
def wordStart (holds : List Char → Bool) : Recogniser := fun before cs ↦
  if atWordStart before && holds cs then some 1 else none

/-- A text followed by white space, if any, and an opening parenthesis. -/
def opensCall (name : String) (cs : List Char) : Bool :=
  match Chars.afterStart? name.toList cs with
  | some rest => (Chars.trimStart rest).head? == some '('
  | none => false

def hasPublicClass (cs : List Char) : Bool :=
  occursIn (wordStart fun cs ↦
    (((afterWord? "public" cs).bind (afterWord? "class")).bind List.head?).any isWordChar) none cs

def hasElementAnnotation (cs : List Char) : Bool :=
  occursIn (fun _ cs ↦ if opensCall "@FindBy" cs then some 1 else none) none cs

def hasTypedElement (cs : List Char) : Bool :=
  occursIn (wordStart fun cs ↦
    ((afterWord? "WebElement" cs).bind List.head?).any isWordChar) none cs

def hasDriverCall (cs : List Char) : Bool :=
  occursIn (wordStart (opensCall "driver.findElement")) none cs

/-- Kinds of source syntax that must not be left in a file, in the order of their tests. -/
def leaks : List (String × (List Char → Bool)) :=
  [("import statement", startsImport),
   ("package declaration", startsPackage),
   ("class declaration", fun cs ↦ startsClass cs || hasPublicClass cs),
   ("element annotation", hasElementAnnotation),
   ("typed element declaration", hasTypedElement),
   ("step annotation", fun cs ↦ hasStepAnnotations (String.ofList cs)),
   ("driver call", hasDriverCall)]

/-- The kind of source syntax in a row, if there is any. -/
def leak? (line : String) : Option String :=
  let code := Chars.trim line.toList
  (leaks.find? fun (_, holds) ↦ holds code).map Prod.fst

/-- A text cut at a number of characters. -/
def shorten (limit : Nat) (text : String) : String :=
  if limit < text.length then takeChars limit text ++ "..." else text

def leakIssue? (r : SectionRow) : Option String :=
  (leak? r.text).map fun kind ↦
    s!"line {r.number}: leaked source syntax ({kind}): " ++ shorten 80 (trim r.text)

/-- The recognized library that a settings row imports. -/
def SectionRow.library? (r : SectionRow) : Option String :=
  if r.sectionName == "setting" then
    (importedLibrary? r.text).filter fun name ↦
      recognizedLibraries.any fun library ↦ equalIgnoringAsciiCase library name
  else none

/-- Whether a row runs an action: as a fixture in the settings, or as a call in a body. -/
def SectionRow.isAction (r : SectionRow) : Bool :=
  if r.sectionName == "setting" then
    (importedLibrary? r.text).isNone && (fixtureKeyword? r.text).any isActionKeyword
  else isBodySection r.sectionName && (calledKeyword? r.text).any isActionKeyword

def hasBodySection (content : String) : Bool :=
  (lines content).any fun line ↦ (sectionName? line).any isBodySection

/-- The recognized library that a file imports last. -/
def library? (content : String) : Option String :=
  ((sectionRows content).filterMap SectionRow.library?).getLast?

def libraryIssues (content : String) : List String :=
  match library? content with
  | none =>
      ["missing automation library import (expected one of: " ++
        String.intercalate ", " recognizedLibraries ++ ")"]
  | some name =>
      if (sectionRows content).any SectionRow.isAction then []
      else ["imports " ++ name ++ " but calls none of its action keywords"]

/-- The report on a file: leftovers of source syntax by line, then what the file as a whole
lacks. -/
def validate (content : String) : Report :=
  ⟨(sectionRows content).filterMap leakIssue? ++
    (if hasBodySection content then []
     else ["missing *** Keywords *** or *** Test Cases *** section"]) ++
    libraryIssues content⟩

end SuiteMigration.Robot
