import SuiteMigration.Action.Basic
import SuiteMigration.Robot.Argument
import SuiteMigration.Text.Quoted

/-!
Keyword rows for actions. Every action gives at least one row: a keyword call, or a comment that
says what is left to do. A comment for review stands before the row whose argument it is about.
-/

set_option autoImplicit false
set_option relaxedAutoImplicit false

namespace SuiteMigration.Robot

open SuiteMigration.Text SuiteMigration.Keyword

/-- The locator prefix for a strategy of the source. -/
def locatorPrefix? : String → Option String
  | "id" => some "id"
  | "name" => some "name"
  | "xpath" => some "xpath"
  | "cssSelector" => some "css"
  | "css" => some "css"
  | "className" => some "class"
  | "linkText" => some "link"
  | "partialLinkText" => some "partial link"
  | "tagName" => some "tag"
  | _ => none

/-- The locator as text, if its strategy is known. -/
def renderLocator? (l : Locator) : Option String :=
  (locatorPrefix? l.strategy).map fun kind ↦ kind ++ ":" ++ l.value

/-- The cell that refers to an element, if its strategy is known. -/
def elementCell? : Element → Option String
  | .located l => (renderLocator? l).map escapeCell
  | .named name => some (scalar (constant name))

/-- An element as it is shown in comments. -/
def describeElement : Element → String
  | .located l =>
      "By(Locator \x7b strategy: " ++ quoted l.strategy ++ ", value: " ++ quoted l.value ++ " \x7d)"
  | .named name => "Named(" ++ quoted name ++ ")"

/-- A comment row on one line, cut at 120 characters. -/
def todo (text : String) : String :=
  "# TODO: " ++ takeChars 120 (collapse text)

/-- Puts the variable that keeps the result in front of the cells. -/
def assigned (bind : Option String) (cells : List String) : List String :=
  match bind with
  | some name => (scalar name ++ "=") :: cells
  | none => cells

/-- The comment for an argument without an exact conversion. -/
def reviewRow? (arg : String) : Option String :=
  if (convert arg).exact then none else some (todo ("review expression '" ++ arg ++ "'"))

/-- The rows for a keyword call whose cells are made from converted arguments. -/
def callRows (args : List String) (cells : List String → List String) : List String :=
  args.filterMap reviewRow? ++ [row (cells (args.map fun arg ↦ (convert arg).text))]

def visibilityCheck : ElementAction → String
  | .isDisplayed => "Element Should Be Visible"
  | _ => "Element Should Be Enabled"

/-- The cells of an interaction, or what is unmapped about it. -/
def interactionCells (locator : String) (action : ElementAction) (bind : Option String)
    (args : List String) : List String :=
  let first := args.headD emptyCell
  match action with
  | .click => ["Click Element", locator]
  | .fill => ["Input Text", locator, first]
  | .clear => ["Clear Element Text", locator]
  | .getText => assigned (some (bind.getD "text")) ["Get Text", locator]
  | .isDisplayed | .isEnabled =>
      match bind with
      | some _ => assigned bind ["Run Keyword And Return Status", visibilityCheck action, locator]
      | none => [visibilityCheck action, locator]
  | .submit => ["Submit Form"]
  | .getAttribute => assigned bind ["Get Element Attribute", locator, first]
  | .select .label => ["Select From List By Label", locator, first]
  | .select .value => ["Select From List By Value", locator, first]
  | .select .index => ["Select From List By Index", locator, first]
  | .other _ => []

def browserKeyword : BrowserCall → String
  | .back => "Go Back"
  | .refresh => "Reload Page"
  | .maximize => "Maximize Browser Window"
  | .close => "Close Browser"
  | .title => "Get Title"
  | .currentUrl => "Get Location"

def BrowserCall.returnsValue : BrowserCall → Bool
  | .title | .currentUrl => true
  | _ => false

def waitKeyword : WaitKind → String
  | .visible => "Wait Until Element Is Visible"
  | .notVisible => "Wait Until Element Is Not Visible"
  | .clickable => "Wait Until Element Is Enabled"

/-- The cells of an assertion; a missing value is empty. -/
def assertionCells (kind : AssertionKind) (args : List String) : List String :=
  let arg := fun i ↦ args.getD i emptyCell
  match kind with
  | .equals => ["Should Be Equal", arg 0, arg 1]
  | .isTrue => ["Should Be True", arg 0]
  | .isFalse => ["Should Not Be True", arg 0]
  | .notNull => ["Should Not Be Equal", arg 0, scalar "None"]
  | .null => ["Should Be Equal", arg 0, scalar "None"]
  | .notEquals => ["Should Not Be Equal", arg 0, arg 1]

/-- The keyword rows of an action. -/
def actionRows : Action → List String
  | .interaction element action args bind =>
      match elementCell? element with
      | none => [todo ("unmapped locator strategy in " ++ describeElement element)]
      | some locator =>
          match action with
          | .other method =>
              args.filterMap reviewRow? ++
                [todo ("unmapped element action '" ++ method ++ "' on " ++ locator)]
          | known => callRows args (interactionCells locator known bind)
  | .navigate url => callRows [url] ("Go To" :: ·)
  | .browser call bind =>
      [row (assigned (bind.filter fun _ ↦ BrowserCall.returnsValue call) [browserKeyword call])]
  | .waitFor kind element =>
      match elementCell? element with
      | none => [todo ("unmapped wait target " ++ describeElement element)]
      | some locator => [row [waitKeyword kind, locator, scalar "TIMEOUT"]]
  | .sleep millis => [row ["Sleep", sleepTime millis]]
  | .pageCall _ method args bind =>
      callRows args fun cells ↦ assigned bind (ofIdentifier method :: cells)
  | .assertion kind args => callRows args (assertionCells kind)
  | .log message => callRows [message] ("Log" :: ·)
  | .assign name value =>
      callRows [value] fun cells ↦ (scalar name ++ "=") :: "Set Variable" :: cells
  | .returns value =>
      if startsWith value "$\x7b" then [row ["RETURN", value]] else callRows [value] ("RETURN" :: ·)
  | .unmapped statement => [todo ("unmapped statement: " ++ statement)]

/-- The keyword rows of actions, in order. -/
def rowsOfActions (actions : List Action) : List String :=
  actions.flatMap actionRows

end SuiteMigration.Robot
