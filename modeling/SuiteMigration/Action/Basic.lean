/-!
The actions that a method body performs on a browser: interactions with elements, navigation, waits,
assertions and calls of page objects. A statement that is none of these stays as it is, so that it
can be reported.
-/

set_option autoImplicit false
set_option relaxedAutoImplicit false

namespace SuiteMigration

/-- A way to find an element, and the value to find it by. -/
structure Locator where
  strategy : String
  value : String
  deriving DecidableEq, Repr

inductive Element where
  /-- An element found by an inline locator. -/
  | located (locator : Locator)
  /-- An element declared elsewhere, which is referred to by a variable. -/
  | named (name : String)
  deriving DecidableEq, Repr

inductive SelectBy where
  | label
  | value
  | index
  deriving DecidableEq, Repr

inductive ElementAction where
  | click
  | fill
  | clear
  | getText
  | isDisplayed
  | isEnabled
  | submit
  | getAttribute
  | select (by_ : SelectBy)
  | other (method : String)
  deriving DecidableEq, Repr

/-- The element action that a method name stands for. -/
def ElementAction.ofMethod? : String → Option ElementAction
  | "click" => some .click
  | "sendKeys" => some .fill
  | "clear" => some .clear
  | "getText" => some .getText
  | "isDisplayed" => some .isDisplayed
  | "isEnabled" => some .isEnabled
  | "submit" => some .submit
  | "getAttribute" => some .getAttribute
  | "getDomAttribute" => some .getAttribute
  | "selectByVisibleText" => some (.select .label)
  | "selectByValue" => some (.select .value)
  | "selectByIndex" => some (.select .index)
  | _ => none

/-- Whether the result of the action can be kept in a variable. -/
def ElementAction.returnsValue : ElementAction → Bool
  | .getText | .isDisplayed | .isEnabled | .getAttribute => true
  | _ => false

inductive WaitKind where
  | visible
  | notVisible
  | clickable
  deriving DecidableEq, Repr

inductive BrowserCall where
  | back
  | refresh
  | maximize
  | close
  | title
  | currentUrl
  deriving DecidableEq, Repr

inductive AssertionKind where
  | equals
  | isTrue
  | isFalse
  | notNull
  | null
  | notEquals
  deriving DecidableEq, Repr

/-- The assertion that a static assertion method stands for. -/
def AssertionKind.ofMethod? : String → Option AssertionKind
  | "assertEquals" => some .equals
  | "assertTrue" => some .isTrue
  | "assertFalse" => some .isFalse
  | "assertNotNull" => some .notNull
  | "assertNull" => some .null
  | "assertNotEquals" => some .notEquals
  | _ => none

/-- The assertion that a check on a subject stands for. -/
def AssertionKind.ofCheck? : String → Option AssertionKind
  | "isEqualTo" => some .equals
  | "isTrue" => some .isTrue
  | "isFalse" => some .isFalse
  | "isNotNull" => some .notNull
  | "isNull" => some .null
  | "isNotEqualTo" => some .notEquals
  | _ => none

/-- Number of compared values; a message is not counted. -/
def AssertionKind.arity : AssertionKind → Nat
  | .equals | .notEquals => 2
  | _ => 1

inductive Action where
  | interaction (element : Element) (action : ElementAction) (args : List String)
      (bind : Option String)
  | navigate (url : String)
  | browser (call : BrowserCall) (bind : Option String)
  | waitFor (kind : WaitKind) (element : Element)
  | sleep (millis : String)
  | pageCall (object method : String) (args : List String) (bind : Option String)
  | assertion (kind : AssertionKind) (args : List String)
  | log (message : String)
  | assign (name value : String)
  | returns (value : String)
  | unmapped (statement : String)
  deriving DecidableEq, Repr

/-- Whether the result of the action is kept in a variable. -/
def Action.isBound : Action → Bool
  | .interaction _ _ _ bind | .browser _ bind | .pageCall _ _ _ bind => bind.isSome
  | _ => false

def Action.isUnmapped : Action → Bool
  | .unmapped _ => true
  | _ => false

end SuiteMigration
