import SuiteMigration.Action.Basic
import SuiteMigration.Java.CallChain
import SuiteMigration.Java.Literal
import SuiteMigration.Java.Outline

/-!
Elements in source expressions, and the elements that a class declares.
-/

set_option autoImplicit false
set_option relaxedAutoImplicit false

namespace SuiteMigration

open SuiteMigration.Text SuiteMigration.Java

/-- Whether a chain has the shape of an inline locator `By.strategy(…)`, whatever its argument. -/
def isLocatorCall : List Link → Bool
  | [source, strategy] => source.name == "By" && strategy.args.length == 1
  | _ => false

/-- The inline locator of a chain `By.strategy("value")`. -/
def locatorOfLinks? : List Link → Option Locator
  | [_, strategy] =>
      let literal := Chars.trim (strategy.args.headD "").toList
      if isQuoted literal then some ⟨strategy.name, String.ofList (unescapeChars (inner literal))⟩
      else none
  | _ => none

/-- The element of a chain: an inline locator, or the element that the argument of a final
`findElement` refers to. Arguments are followed through `fuel` levels. -/
def elementWithin : Nat → List Link → Option Element
  | 0, _ => none
  | fuel + 1, links =>
      if isLocatorCall links then (locatorOfLinks? links).map .located
      else
        match links.getLast? with
        | none => none
        | some find =>
            if find.isCall "findElement" then
              match find.args with
              | [arg] => (callChain? (trim arg)).bind (elementWithin fuel)
              | _ => none
            else none

/-- The element that a chain of links refers to. The arguments of a link are shorter than the
expression, so the number of characters bounds the nesting. -/
def elementOfLinks? (links : List Link) : Option Element :=
  elementWithin (((links.flatMap Link.args).flatMap String.toList).length + 1) links

/-- The element that an expression refers to by an inline locator. -/
def parseElement? (expr : String) : Option Element :=
  (callChain? (trim expr)).bind (elementWithin (expr.length + 1))

structure ElementDeclaration where
  name : String
  locator : Locator
  deriving DecidableEq, Repr

/-- The locator strategy for the constant of a `how` argument. -/
def strategyOfHow (how : String) : String :=
  match String.ofList (simpleName how.toList) with
  | "ID" | "ID_OR_NAME" => "id"
  | "NAME" => "name"
  | "XPATH" => "xpath"
  | "CSS" => "css"
  | "CLASS_NAME" => "className"
  | "LINK_TEXT" => "linkText"
  | "PARTIAL_LINK_TEXT" => "partialLinkText"
  | "TAG_NAME" => "tagName"
  | other => other

/-- The locator of an annotation that finds an element, either by `how` and `using` or by the first
argument, in the order of the keys, whose value has a string literal. -/
def locatorOfAnnotation? (a : AnnotationUse) : Option Locator :=
  let args := a.namedArgs
  match args.lookup "how", args.lookup "using" with
  | some how, some using_ => (firstLiteral? using_).map fun value ↦ ⟨strategyOfHow how, value⟩
  | _, _ =>
      args.findSome? fun (key, value) ↦
        if key == "how" || key == "using" then none
        else (firstLiteral? value).map fun literal ↦ ⟨key, literal⟩

def findAnnotations : List String :=
  ["FindBy", "AndroidFindBy", "iOSXCUITFindBy"]

/-- The element that a field declares, by an annotation or by a locator as its value. -/
def elementOfField? (f : Field) : Option ElementDeclaration := do
  let name ← f.name?
  match f.annotations.find? fun a ↦ findAnnotations.contains a.name with
  | some a => return ⟨name, ← locatorOfAnnotation? a⟩
  | none =>
      match parseElement? (← f.initializer?) with
      | some (.located locator) => return ⟨name, locator⟩
      | _ => none

/-- The elements that a class declares, in order. -/
def elementDeclarations (o : Outline) : List ElementDeclaration :=
  o.fields.filterMap elementOfField?

/-- The declared elements by name, sorted; of two with one name the later counts. -/
def elementNames (o : Outline) : Assoc Locator :=
  (elementDeclarations o).foldl (fun names d ↦ Assoc.insert d.name d.locator names) []

end SuiteMigration
