import SuiteMigration.Action.Binding
import SuiteMigration.Action.Element
import SuiteMigration.Java.Statement

/-!
Actions of a method body. Every statement is read as a return, a binding or a call chain, and a
chain is matched against the shapes of the known actions in a fixed order. What a local variable
stands for is kept from statement to statement.
-/

set_option autoImplicit false
set_option relaxedAutoImplicit false

namespace SuiteMigration

open SuiteMigration.Text SuiteMigration.Java

/-- What the names in a method body stand for. The latest binding of a name comes first. -/
structure Scope where
  /-- Declared elements. -/
  elements : Assoc Locator
  /-- Local variables bound to elements. -/
  locals : List (String × Element) := []
  /-- Local variables bound to selection lists. -/
  selects : List (String × Element) := []

/-- The element that an expression refers to: by an inline locator, a local variable or a declared
name. -/
def Scope.resolve? (scope : Scope) (expr : String) : Option Element :=
  match parseElement? expr with
  | some element => some element
  | none =>
      let trimmed := Chars.trim expr.toList
      let name := String.ofList (dropStarts "this.".toList trimmed.length trimmed)
      match scope.locals.lookup name with
      | some element => some element
      | none => if (scope.elements.lookup name).isSome then some (.named name) else none

/-- Element methods that mark an unknown receiver as an element. -/
def commonElementMethods : List String :=
  ["click", "sendKeys", "clear", "getText", "isDisplayed", "isEnabled"]

def isDriver (link : Link) : Bool :=
  let name := toLower link.name
  name == "driver" || name == "webdriver" || name == "getdriver"

def sleepAction? : List Link → Option Action
  | [thread, call] =>
      if thread.name == "Thread" && call.isCall "sleep" then call.args.head?.map .sleep else none
  | _ => none

/-- Navigation through the `navigate()` object, if the chain calls it. -/
def navigatorAction? (links : List Link) : Option (Option Action) := do
  let position ← links.findIdx? fun l ↦ l.isCall "navigate" && l.args.isEmpty
  return do
    let next ← links[position + 1]?
    match next.name with
    | "to" => next.args.head?.map .navigate
    | "back" => some (.browser .back none)
    | "refresh" => some (.browser .refresh none)
    | _ => none

def driverCall? : String → Option BrowserCall
  | "quit" | "close" => some .close
  | "getTitle" => some .title
  | "getCurrentUrl" => some .currentUrl
  | _ => none

/-- Methods of the test class itself that open a page. -/
def openingMethods : List String :=
  ["navigate", "navigateTo", "goTo", "open", "openUrl", "visit"]

def navigationAction? (links : List Link) (bind : Option String) : Option Action :=
  match navigatorAction? links with
  | some result => result
  | none =>
      match links with
      | [call] =>
          match call.args with
          | [url] => if openingMethods.contains call.name then some (.navigate url) else none
          | _ => none
      | [driver, call] =>
          if isDriver driver then
            match call.args? with
            | some [] => (driverCall? call.name).map fun c ↦ .browser c bind
            | some [url] => if call.name == "get" then some (.navigate url) else none
            | _ => none
          else none
      | [driver, manage, window, maximize] =>
          if isDriver driver && manage.isCall "manage" && window.isCall "window" &&
              maximize.isCall "maximize" then
            some (.browser .maximize none)
          else none
      | _ => none

def waitKind? : String → Option WaitKind
  | "visibilityOfElementLocated" | "visibilityOf" | "presenceOfElementLocated" => some .visible
  | "invisibilityOfElementLocated" | "invisibilityOf" => some .notVisible
  | "elementToBeClickable" => some .clickable
  | _ => none

def waitAction? (links : List Link) (scope : Scope) : Option Action := do
  let until_ ← links.find? fun l ↦ l.isCall "until"
  let condition ← callChain? (← until_.args.head?)
  let last ← condition.getLast?
  let kind ← waitKind? last.name
  let element ← scope.resolve? (← last.args.head?)
  return .waitFor kind element

def isStringLiteral (expr : String) : Bool :=
  isQuoted (Chars.trim expr.toList)

/-- Drops the message of an assertion with more arguments than values: a literal in front, or else
what stands at the end. -/
def assertionArgs (kind : AssertionKind) (args : List String) : List String :=
  if args.length ≤ kind.arity then args
  else if args.head?.any isStringLiteral then args.drop (args.length - kind.arity)
  else args.take kind.arity

/-- An assertion on a subject through a matcher call. -/
def matcherAssertion? (actual matcher : String) : Option Action := do
  match ← callChain? matcher with
  | [outer] =>
      let expected ← outer.args.head?
      match outer.name with
      | "is" | "equalTo" =>
          match (callChain? expected).bind List.head? with
          | some nested =>
              if nested.name == "not" || nested.name == "equalTo" then
                let value ← nested.args.head?
                let kind := if nested.name == "not" then AssertionKind.notEquals else .equals
                return .assertion kind [actual, value]
              else return .assertion .equals [actual, expected]
          | none => return .assertion .equals [actual, expected]
      | "not" => return .assertion .notEquals [actual, expected]
      | _ => none
  | _ => none

/-- An assertion that starts with `assertThat`. -/
def subjectAssertion? (links : List Link) : Option Action := do
  let position ← links.findIdx? fun l ↦ l.isCall "assertThat"
  let subject := (← links[position]?).args
  match links[position + 1]? with
  | some check =>
      let kind ← AssertionKind.ofCheck? check.name
      return .assertion kind ((← subject.head?) :: check.args)
  | none =>
      match subject with
      | [actual, matcher] => matcherAssertion? actual matcher
      | [_, actual, matcher] => matcherAssertion? actual matcher
      | _ => none

def assertionAction? (links : List Link) : Option Action := do
  let last ← links.getLast?
  match AssertionKind.ofMethod? last.name, last.args? with
  | some kind, some args => return .assertion kind (assertionArgs kind args)
  | _, _ => subjectAssertion? links

/-- The selection list that a choice is made in. -/
def selectElement? (receiver : List Link) (scope : Scope) : Option Element :=
  match receiver with
  | [source] =>
      if source.name == "new Select" then source.args.head?.bind scope.resolve?
      else if source.args?.isNone then scope.selects.lookup source.name
      else none
  | _ => none

/-- The element that the last call of a chain acts on. -/
def receiverElement? (receiver : List Link) (method : String) (scope : Scope) : Option Element :=
  match receiver.getLast? with
  | none => none
  | some last =>
      if last.isCall "findElement" then
        match elementOfLinks? receiver with
        | some element => some element
        | none => last.args.head?.bind scope.resolve?
      else
        match receiver with
        | [named] =>
            if named.args?.isNone then
              match scope.resolve? named.name with
              | some element => some element
              | none =>
                  if !isDriver named && commonElementMethods.contains method then
                    some (.named named.name)
                  else none
            else none
        | _ => none

def interactionAction? (links : List Link) (bind : Option String) (scope : Scope) :
    Option Action := do
  let last ← links.getLast?
  let args ← last.args?
  let receiver := links.dropLast
  match ElementAction.ofMethod? last.name with
  | some (.select choice) =>
      return .interaction (← selectElement? receiver scope) (.select choice) args none
  | known =>
      let element ← receiverElement? receiver last.name scope
      let action := known.getD (.other last.name)
      return .interaction element action args (bind.filter fun _ ↦ action.returnsValue)

/-- Whether a chain prints to the console or to a log. -/
def isLogCall (links : List Link) : Bool :=
  match links with
  | [system, out, call] =>
      system.name == "System" && (out.name == "out" || out.name == "err") &&
        (call.name == "println" || call.name == "print")
  | [logger, call] =>
      (toLower logger.name == "log" || toLower logger.name == "logger") &&
        ["info", "debug", "warn", "error", "trace"].contains call.name
  | _ => false

def logAction? (links : List Link) : Option Action := do
  let message ← (← links.getLast?).args.head?
  if isLogCall links then some (.log message) else none

/-- Receivers that are never page objects. -/
def nonPageReceivers : List String :=
  ["System", "Assert", "Assertions", "Thread", "String", "Math", "Integer", "Objects", "Arrays",
   "Collections", "By"]

/-- One action for every call of a chain on `object`; only the last result is kept. -/
def pageCallActions (object : String) (bind : Option String) : List Link → List Action
  | [] => []
  | [call] => [.pageCall object call.name call.args bind]
  | call :: rest => .pageCall object call.name call.args none :: pageCallActions object bind rest

/-- The page object of a chain and the calls on it. -/
def pageObjectCalls? : List Link → Option (String × List Link)
  | [] => none
  | first :: rest =>
      if first.args?.isSome then some ("", first :: rest)
      else if isDriver first || nonPageReceivers.contains first.name then none
      else some (first.name, rest)

def pageActions? (links : List Link) (bind : Option String) : Option (List Action) := do
  let (object, calls) ← pageObjectCalls? links
  if calls.isEmpty || calls.any (fun l ↦ l.args?.isNone || isDriver l) then none
  else if calls.any (fun l ↦ isControlKeyword l.name) then none
  else some (pageCallActions object bind calls)

/-- The single action of a chain, by the first shape that fits. -/
def chainAction? (links : List Link) (bind : Option String) (scope : Scope) : Option Action :=
  sleepAction? links
    <|> navigationAction? links bind
    <|> waitAction? links scope
    <|> assertionAction? links
    <|> interactionAction? links bind scope
    <|> logAction? links

/-- The actions of an expression whose result is kept in `bind`. -/
def expressionActions (expr : String) (bind : Option String) (scope : Scope) : List Action :=
  match callChain? expr with
  | none => [.unmapped expr]
  | some links =>
      match chainAction? links bind scope with
      | some action => [action]
      | none => (pageActions? links bind).getD [.unmapped expr]

/-- The actions of a returned expression. A call keeps its result in `result`, which is returned. -/
def returnActions (expr : String) (scope : Scope) : List Action :=
  if (callChain? expr).any fun links ↦ links.any fun l ↦ l.args?.isSome then
    let actions := expressionActions expr (some "result") scope
    if actions.getLast?.any Action.isBound then actions ++ [.returns "$\x7bresult\x7d"] else actions
  else [.returns expr]

/-- The selection list that a binding wraps an element in. -/
def boundSelect? (links : List Link) (scope : Scope) : Option Element :=
  match links with
  | [call] =>
      if call.name == "new Select" then
        match call.args with
        | [arg] => scope.resolve? arg
        | _ => none
      else none
  | _ => none

/-- Whether a chain is a single constructor call. -/
def isConstruction (links : List Link) : Bool :=
  match links with
  | [call] => startsWith call.name "new "
  | _ => false

/-- The actions of a binding, and the scope after it. Binding an element or building an object is no
action. -/
def bindingActions (statement : String) (b : Binding) (scope : Scope) : List Action × Scope :=
  match parseElement? b.value with
  | some element => ([], { scope with locals := (b.name, element) :: scope.locals })
  | none =>
      match callChain? b.value with
      | none => ([.assign b.name b.value], scope)
      | some links =>
          match boundSelect? links scope with
          | some element => ([], { scope with selects := (b.name, element) :: scope.selects })
          | none =>
              if isConstruction links then ([], scope)
              else if links.all fun l ↦ l.args?.isNone then ([.assign b.name b.value], scope)
              else
                let actions := expressionActions b.value (some b.name) scope
                if actions.all Action.isUnmapped then ([.unmapped statement], scope)
                else (actions, scope)

/-- The actions of one statement, and the scope after it. -/
def statementActions (statement : String) (scope : Scope) : List Action × Scope :=
  if statement.isEmpty || statement == "return" || statement == "return this" then ([], scope)
  else
    match afterStart? "return " statement with
    | some expr => (returnActions (trim expr) scope, scope)
    | none =>
        match binding? statement with
        | some b => bindingActions statement b scope
        | none => (expressionActions statement none scope, scope)

/-- The actions of statements in order, with the scope handed on. -/
def actionsFrom : Scope → List Statement → List Action
  | _, [] => []
  | scope, s :: rest =>
      let (actions, next) := statementActions s.text scope
      actions ++ actionsFrom next rest

/-- The actions of a method body, in source order. -/
def extractActions (body : String) (elements : Assoc Locator) : List Action :=
  actionsFrom { elements } (statements body)

end SuiteMigration
