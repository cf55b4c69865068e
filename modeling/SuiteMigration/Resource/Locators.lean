import SuiteMigration.Resource.Steps

/-!
Resources for classes of locators. Each locator constant becomes a variable with a rating of how
well it will survive changes of the page.
-/

set_option autoImplicit false
set_option relaxedAutoImplicit false

namespace SuiteMigration

open SuiteMigration.Text SuiteMigration.Java SuiteMigration.Robot SuiteMigration.Keyword

inductive Quality where
  | stable
  | moderate
  | fragile
  deriving DecidableEq, Repr

def Quality.label : Quality → String
  | .stable => "Stable"
  | .moderate => "Moderate"
  | .fragile => "Fragile"

/-- A position among siblings: digits in brackets, or a structural selector. -/
def isPositional (cs : List Char) : Bool :=
  match cs with
  | '[' :: rest =>
      let digits := rest.takeWhile isDecimal
      !digits.isEmpty && (rest.drop digits.length).head? == some ']'
  | _ =>
      Chars.startsWith cs ":nth-child(".toList || Chars.startsWith cs ":nth-of-type(".toList

def hasPosition (value : String) : Bool :=
  occursIn (fun _ cs ↦ if isPositional cs then some 1 else none) none value.toList

/-- How well a locator will survive changes of the page. -/
def Locator.quality (l : Locator) : Quality :=
  let mentions := fun part ↦ contains l.value part
  if mentions "data-testid" || mentions "data-test" || mentions "aria-" then .stable
  else
    match l.strategy with
    | "id" | "name" => .stable
    | "xpath" =>
        if startsWith l.value "/html" || mentions "text()" || hasPosition l.value then .fragile
        else if 4 < l.value.toList.count '/' then .fragile
        else .moderate
    | "cssSelector" | "css" =>
        let depth := ((words l.value).filter (· != ">")).length
        if hasPosition l.value || 3 < depth then .fragile else .moderate
    | "tagName" => .fragile
    | _ => .moderate

/-- The strategy of a selector that is given as a plain text. -/
def inferStrategy (value : String) : String :=
  let v := trim value
  if startsWith v "//" || startsWith v "(/" || startsWith v "./" || startsWith v "(" then "xpath"
  else if startsWith v "#" || startsWith v "." || startsWith v "[" || contains v " > " ||
      contains v "[" then "cssSelector"
  else "id"

structure LocatorConstant where
  name : String
  locator : Locator
  deriving DecidableEq, Repr

/-- The locator that a string constant holds. -/
def constantOfField? (f : Field) : Option LocatorConstant := do
  if f.typeName? == some "String" then
    let name ← f.name?
    let value ← firstLiteral? (← f.initializer?)
    return ⟨name, ⟨inferStrategy value, value⟩⟩
  else none

/-- The locator constants of a class: its elements, then the string constants whose names are not
among them or earlier string constants. -/
def constantsOfOutline (o : Outline) : List LocatorConstant :=
  let elements := (elementDeclarations o).map fun d ↦ (⟨d.name, d.locator⟩ : LocatorConstant)
  o.fields.foldl (fun constants f ↦
    match constantOfField? f with
    | some c => if constants.any (fun k ↦ k.name == c.name) then constants else constants ++ [c]
    | none => constants) elements

def locatorConstants (source : String) : Except OutlineError (List LocatorConstant) :=
  (outline source).map constantsOfOutline

/-- The variable for a locator constant, with its quality or what is unknown about it. -/
def constantVariable (c : LocatorConstant) : Variable :=
  match renderLocator? c.locator with
  | some locator =>
      { name := constant c.name
        value := escapeCell locator
        comment := some ("quality: " ++ c.locator.quality.label) }
  | none =>
      { name := constant c.name
        value := escapeCell c.locator.value
        comment := some ("TODO: unmapped locator strategy '" ++ c.locator.strategy ++ "'") }

def qualityRemark (constants : List LocatorConstant) : String :=
  let count := fun q ↦ (constants.filter fun c ↦ c.locator.quality == q).length
  s!"# Locator quality: {count .stable} stable, {count .moderate} moderate, " ++
    s!"{count .fragile} fragile"

/-- The resource for a class of locators, if it has any. -/
def locatorResource (source : String) (ctx : Context) :
    Except OutlineError (Option Generated) := do
  let o ← outline source
  let constants := constantsOfOutline o
  if constants.isEmpty then return none
  let file := ctx.resourceFile ("Locators migrated from " ++ ctx.classTitle o.name)
  return some
    ⟨{ file with
        header := [qualityRemark constants]
        declarations := constants.map constantVariable },
     .semantic⟩

end SuiteMigration
