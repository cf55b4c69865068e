import SuiteMigration.Action.StepDefinition
import SuiteMigration.Proofs.Action.InPlace.Element
import SuiteMigration.Proofs.Java.InPlace.Outline
import SuiteMigration.Resource.Locators

/-!
Steps and locator constants in place. Links and arguments are taken from their lists by position,
and a position is either that of an entry that was found or is checked against the length first.
-/

set_option autoImplicit false
set_option relaxedAutoImplicit false

namespace SuiteMigration.InPlace

open SuiteMigration.Java SuiteMigration.Text
open SuiteMigration.Java.InPlace (Attempt HasAsciiSymbols Readable Reading attempt attempt_eq_mk
  attempt_map callChain callChain_eq lift_some_bind_reading minus? minus?_eq_some_iff reading
  reading_bind reading_none reading_some readable_outline)

theorem reading_orElse {α : Type} (first second : Option α) :
    reading (first <|> second) = (reading first <|> reading second) := by
  cases first <;> rfl

theorem run_reading {α : Type} (result : Option α) : (reading result).run = some result := rfl

/-! ### Elements and assertions -/

section Chain

variable (links : List Link) (bind : Option String) (scope : Scope)

/-- The element that an expression names, by a local variable or a declared name. -/
def named? (expr : String) : Option Element :=
  let trimmed := Chars.trim expr.toList
  let name := String.ofList (dropStarts "this.".toList trimmed.length trimmed)
  match scope.locals.lookup name with
  | some element => some element
  | none => if (scope.elements.lookup name).isSome then some (.named name) else none

/-- The element that an expression refers to. -/
def resolve (expr : String) : Reading Element :=
  parseElement expr <|> reading (named? scope expr)

def navigationAction : Reading Action :=
  match navigatorAction? links with
  | some result => reading result
  | none =>
      match links with
      | [call] => do
          let url ← onlyArgument call
          if openingMethods.contains call.name then return .navigate url else failure
      | [driver, call] =>
          if isDriver driver then
            if call.name == "get" && call.args.length == 1 then .navigate <$> entry call.args 0
            else if call.args.isEmpty && call.args?.isSome then
              reading ((driverCall? call.name).map fun c ↦ .browser c bind)
            else failure
          else failure
      | [driver, manage, window, maximize] =>
          if isDriver driver && manage.isCall "manage" && window.isCall "window" &&
              maximize.isCall "maximize" then
            return .browser .maximize none
          else failure
      | _ => failure

def waitAction : Reading Action := do
  let until_ ← reading (links.find? fun l ↦ l.isCall "until")
  let condition ← callChain (← reading until_.args.head?)
  let last ← reading condition.getLast?
  let kind ← reading (waitKind? last.name)
  let element ← resolve scope (← reading last.args.head?)
  return .waitFor kind element

/-- The compared values of an assertion, without its message. -/
def assertionArgs (kind : AssertionKind) (args : List String) : Option (List String) :=
  if args.length ≤ kind.arity then some args
  else do
    let first ← args[0]?
    if isStringLiteral first then part? args (← minus? args.length kind.arity) args.length
    else part? args 0 kind.arity

/-- An assertion on a subject through a matcher call. -/
def matcherAssertion (actual matcher : String) : Reading Action := do
  match ← callChain matcher with
  | [outer] =>
      let expected ← reading outer.args.head?
      match outer.name with
      | "is" | "equalTo" =>
          match (← OptionT.lift (callChain expected).run).bind List.head? with
          | some nested =>
              if nested.name == "not" || nested.name == "equalTo" then
                let value ← reading nested.args.head?
                let kind := if nested.name == "not" then AssertionKind.notEquals else .equals
                return .assertion kind [actual, value]
              else return .assertion .equals [actual, expected]
          | none => return .assertion .equals [actual, expected]
      | "not" => return .assertion .notEquals [actual, expected]
      | _ => failure
  | _ => failure

/-- An assertion that starts with `assertThat`. -/
def subjectAssertion : Reading Action := do
  let position ← reading (links.findIdx? fun l ↦ l.isCall "assertThat")
  let subject := (← entry links position).args
  match links[position + 1]? with
  | some check =>
      let kind ← reading (AssertionKind.ofCheck? check.name)
      return .assertion kind ((← reading subject.head?) :: check.args)
  | none =>
      match subject with
      | [actual, matcher] => matcherAssertion actual matcher
      | [_, actual, matcher] => matcherAssertion actual matcher
      | _ => failure

def assertionAction : Reading Action := do
  let last ← reading links.getLast?
  match AssertionKind.ofMethod? last.name, last.args? with
  | some kind, some args => return .assertion kind (← OptionT.lift (assertionArgs kind args))
  | _, _ => subjectAssertion links

/-- The selection list that a choice is made in. -/
def selectElement (receiver : List Link) : Reading Element :=
  match receiver with
  | [source] =>
      if source.name == "new Select" then do resolve scope (← reading source.args.head?)
      else if source.args?.isNone then reading (scope.selects.lookup source.name)
      else failure
  | _ => failure

/-- The element that the last call of a chain acts on. -/
def receiverElement (receiver : List Link) (method : String) : Reading Element := do
  let last ← reading receiver.getLast?
  if last.isCall "findElement" then
    elementOfLinks receiver <|> do resolve scope (← reading last.args.head?)
  else
    match receiver with
    | [named] =>
        if named.args?.isNone then
          resolve scope named.name <|>
            if !isDriver named && commonElementMethods.contains method then
              return .named named.name
            else failure
        else failure
    | _ => failure

def interactionAction : Reading Action := do
  let last ← reading links.getLast?
  let args ← reading last.args?
  let receiver ← OptionT.lift do part? links 0 (← minus? links.length 1)
  match ElementAction.ofMethod? last.name with
  | some (.select choice) =>
      return .interaction (← selectElement scope receiver) (.select choice) args none
  | known =>
      let element ← receiverElement scope receiver last.name
      let action := known.getD (.other last.name)
      return .interaction element action args (bind.filter fun _ ↦ action.returnsValue)

/-- Whether a chain prints to the console or to a log. -/
def isLogCall : Option Bool :=
  match links with
  | [system, out, call] =>
      some (system.name == "System" && (out.name == "out" || out.name == "err") &&
        (call.name == "println" || call.name == "print"))
  | _ =>
      if links.length == 2 then do
        let logger ← links[0]?
        let call ← links[1]?
        return (toLower logger.name == "log" || toLower logger.name == "logger") &&
          ["info", "debug", "warn", "error", "trace"].contains call.name
      else some false

def logAction : Reading Action := do
  let last ← reading links.getLast?
  let message ← reading last.args.head?
  if ← OptionT.lift (isLogCall links) then return .log message else failure

theorem resolve_eq (expr : String) : resolve scope expr = reading (scope.resolve? expr) := by
  have hresolve : scope.resolve? expr = (parseElement? expr <|> named? scope expr) := by
    unfold Scope.resolve? named?
    cases parseElement? expr with
    | none => rfl
    | some element => rfl
  rw [resolve, parseElement_eq, hresolve, reading_orElse]

theorem resolve_head?_eq (args : List String) :
    (do resolve scope (← reading args.head?)) = reading (args.head?.bind scope.resolve?) := by
  cases args with
  | nil => rfl
  | cons arg rest =>
    rw [List.head?_cons, reading_some, pure_bind, Option.bind_some, resolve_eq]

theorem navigationAction_eq :
    navigationAction links bind = reading (navigationAction? links bind) := by
  unfold navigationAction navigationAction?
  cases navigatorAction? links with
  | some result => rfl
  | none =>
    match links with
    | [] | [_, _, _] | _ :: _ :: _ :: _ :: _ :: _ => rfl
    | [call] =>
      have hbind := onlyArgument_bind call fun url ↦
        if openingMethods.contains call.name then some (Action.navigate url) else none
      simp only [apply_ite reading] at hbind
      exact hbind
    | [driver, ⟨name, args?⟩] =>
      dsimp only
      rw [apply_ite reading]
      refine if_congr Iff.rfl ?_ rfl
      rcases args? with _ | _ | ⟨url, _ | ⟨second, rest⟩⟩
      · simp [Link.args, reading_none]
      · simp [Link.args]
      · have hentry : entry (Link.args ⟨name, some [url]⟩) 0 = reading (some url) := rfl
        rw [hentry]
        simp [Link.args, reading_none, reading_some, apply_ite reading]
      · simp [Link.args, reading_none]
    | [driver, manage, window, maximize] =>
      dsimp only
      rw [apply_ite reading]
      rfl

theorem waitAction_eq : waitAction links scope = reading (waitAction? links scope) := by
  unfold waitAction waitAction?
  simp only [reading_bind, callChain_eq, resolve_eq]
  rfl

theorem assertionArgs_eq (kind : AssertionKind) (args : List String) :
    assertionArgs kind args = some (SuiteMigration.assertionArgs kind args) := by
  unfold assertionArgs SuiteMigration.assertionArgs
  split
  next => rfl
  next hlonger =>
    have harity : kind.arity ≤ args.length := Nat.le_of_not_le hlonger
    cases args with
    | nil => exact absurd (Nat.zero_le _) hlonger
    | cons first rest =>
      have hfirst : (first :: rest).head?.any isStringLiteral = isStringLiteral first := rfl
      have hrest : minus? (first :: rest).length kind.arity =
          some ((first :: rest).length - kind.arity) :=
        minus?_eq_some_iff.mpr (Nat.add_sub_of_le harity)
      rw [hfirst, hrest, part?_from_start harity]
      simp only [List.getElem?_cons_zero, Option.bind_eq_bind, Option.bind_some,
        part?_to_end (Nat.sub_le _ _)]
      split_ifs <;> rfl

theorem matcherAssertion_eq (actual matcher : String) :
    matcherAssertion actual matcher = reading (matcherAssertion? actual matcher) := by
  unfold matcherAssertion matcherAssertion?
  rw [callChain_eq, reading_bind]
  refine bind_congr fun chain ↦ ?_
  match chain with
  | [] | _ :: _ :: _ => rfl
  | [outer] =>
    dsimp only
    rw [reading_bind]
    refine bind_congr fun expected ↦ ?_
    rw [callChain_eq, run_reading, lift_some_bind_reading]
    by_cases hequals : outer.name = "is" ∨ outer.name = "equalTo"
    · rcases hequals with hname | hname
      all_goals
        simp only [hname]
        cases (callChain? expected).bind List.head? with
        | none => rfl
        | some nested =>
          dsimp only
          rw [apply_ite reading, reading_bind]
          rfl
    · obtain ⟨his, hequal⟩ := not_or.mp hequals
      by_cases hnot : outer.name = "not"
      · simp only [hnot]
        rfl
      · -- the matches go to their last branches by the three hypotheses
        simp only
        rfl

theorem subjectAssertion_eq : subjectAssertion links = reading (subjectAssertion? links) := by
  unfold subjectAssertion subjectAssertion?
  cases hfind : links.findIdx? fun l ↦ l.isCall "assertThat" with
  | none => rfl
  | some position =>
    obtain ⟨hposition, -⟩ := List.findIdx?_eq_some_iff_getElem.mp hfind
    have hentry := List.getElem?_eq_getElem hposition
    rw [reading_some, pure_bind, entry_of_getElem? hentry, reading_some, pure_bind]
    simp only [Option.bind_eq_bind, Option.bind_some, hentry]
    cases links[position + 1]? with
    | some check =>
      dsimp only
      rw [← Option.bind_eq_bind, reading_bind]
      refine bind_congr fun kind ↦ ?_
      exact (reading_bind ..).symm
    | none =>
      dsimp only
      rcases links[position].args with
        _ | ⟨first, _ | ⟨second, _ | ⟨third, _ | ⟨fourth, rest⟩⟩⟩⟩
      case cons.cons.nil => exact matcherAssertion_eq first second
      case cons.cons.cons.nil => exact matcherAssertion_eq second third
      all_goals rfl

theorem assertionAction_eq : assertionAction links = reading (assertionAction? links) := by
  unfold assertionAction assertionAction?
  rw [reading_bind]
  refine bind_congr fun last ↦ ?_
  match AssertionKind.ofMethod? last.name, last.args? with
  | some kind, some args =>
    dsimp only
    rw [assertionArgs_eq, lift_some_bind_reading]
    rfl
  | none, _ | some _, none => exact subjectAssertion_eq links

theorem selectElement_eq (receiver : List Link) :
    selectElement scope receiver = reading (selectElement? receiver scope) := by
  unfold selectElement selectElement?
  match receiver with
  | [] | _ :: _ :: _ => rfl
  | [source] =>
    dsimp only
    rw [apply_ite reading, apply_ite reading, resolve_head?_eq]
    rfl

theorem receiverElement_eq (receiver : List Link) (method : String) :
    receiverElement scope receiver method = reading (receiverElement? receiver method scope) := by
  unfold receiverElement receiverElement?
  cases hlast : receiver.getLast? with
  | none => rfl
  | some last =>
    rw [reading_some, pure_bind]
    dsimp only
    rw [apply_ite reading]
    refine if_congr Iff.rfl ?_ ?_
    · rw [elementOfLinks_eq, resolve_head?_eq, ← reading_orElse]
      cases elementOfLinks? receiver <;> rfl
    · clear hlast
      match receiver with
      | [] | _ :: _ :: _ => rfl
      | [named] =>
        dsimp only
        rw [apply_ite reading]
        refine if_congr Iff.rfl ?_ rfl
        rw [resolve_eq]
        cases scope.resolve? named.name with
        | some element => rfl
        | none =>
          dsimp only
          rw [apply_ite reading]
          rfl

theorem interactionAction_eq :
    interactionAction links bind scope = reading (interactionAction? links bind scope) := by
  unfold interactionAction interactionAction?
  cases hlast : links.getLast? with
  | none => rfl
  | some last =>
    have hreceiver : (do part? links 0 (← minus? links.length 1)) = some links.dropLast := by
      have hpos := List.length_pos_of_mem (List.mem_of_getLast? hlast)
      rw [minus?_eq_some_iff.mpr (Nat.add_sub_of_le hpos), List.dropLast_eq_take]
      exact part?_from_start (Nat.sub_le _ _)
    rw [hreceiver, reading_some, pure_bind, Option.bind_eq_bind, Option.bind_some, reading_bind]
    refine bind_congr fun args ↦ ?_
    rw [lift_some_bind_reading, receiverElement_eq]
    rcases ElementAction.ofMethod? last.name with _ | known
    · exact (reading_bind ..).symm
    · cases known with
      | select choice =>
        dsimp only
        rw [selectElement_eq]
        exact (reading_bind ..).symm
      | _ => exact (reading_bind ..).symm

theorem isLogCall_eq : isLogCall links = some (SuiteMigration.isLogCall links) := by
  unfold isLogCall SuiteMigration.isLogCall
  rcases links with _ | ⟨first, _ | ⟨second, _ | ⟨third, _ | ⟨fourth, rest⟩⟩⟩⟩
  · rfl
  · rfl
  · rfl
  · rfl
  · simp

theorem logAction_eq : logAction links = reading (logAction? links) := by
  unfold logAction logAction?
  simp only [reading_bind, isLogCall_eq, lift_some_bind_reading, apply_ite reading]
  rfl

end Chain

/-! ### Calls of page objects -/

section Page

variable (object : String) (bind : Option String) (links : List Link)

/-- The action of one call on `object`; only the call at the last position keeps its result. -/
def pageCall (last position : Nat) (call : Link) : Action :=
  .pageCall object call.name call.args (if position == last then bind else none)

def pageCalls : Option (List Action) := do
  let last ← minus? links.length 1
  return links.mapIdx (pageCall object bind last)

/-- The page object of a chain and the calls on it. -/
def pageObjectCalls : Reading (String × List Link) := do
  let first ← reading links.head?
  if first.args?.isSome then return ("", links)
  else if isDriver first || nonPageReceivers.contains first.name then failure
  else return (first.name, ← OptionT.lift (part? links 1 links.length))

def pageActions : Reading (List Action) := do
  let (object, calls) ← pageObjectCalls links
  if calls.isEmpty || calls.any (fun l ↦ l.args?.isNone || isDriver l) then failure
  else if calls.any (fun l ↦ isControlKeyword l.name) then failure
  else OptionT.lift (pageCalls object bind calls)

theorem mapIdx_pageCall (first : Link) (rest : List Link) :
    (first :: rest).mapIdx (pageCall object bind rest.length) =
      pageCallActions object bind (first :: rest) := by
  induction rest generalizing first with
  | nil => rfl
  | cons second rest ih =>
    have hshift : (fun i ↦ pageCall object bind (second :: rest).length (i + 1)) =
        pageCall object bind rest.length := by
      funext i call
      simp [pageCall]
    rw [List.mapIdx_cons, hshift, ih]
    rfl

theorem pageCalls_eq (h : links ≠ []) :
    pageCalls object bind links = some (pageCallActions object bind links) := by
  obtain ⟨first, rest, rfl⟩ := List.exists_cons_of_ne_nil h
  have hlast : minus? (first :: rest).length 1 = some rest.length :=
    minus?_eq_some_iff.mpr (Nat.add_comm 1 rest.length)
  rw [pageCalls, hlast, ← mapIdx_pageCall]
  rfl

theorem pageObjectCalls_eq : pageObjectCalls links = reading (pageObjectCalls? links) := by
  cases links with
  | nil => rfl
  | cons first rest =>
    rw [pageObjectCalls, pageObjectCalls?, List.head?_cons, reading_some, pure_bind,
      part?_to_end (Nat.succ_pos rest.length), apply_ite reading, apply_ite reading]
    rfl

theorem pageActions_eq : pageActions bind links = reading (pageActions? links bind) := by
  unfold pageActions pageActions?
  rw [pageObjectCalls_eq, reading_bind]
  refine bind_congr fun found ↦ ?_
  obtain ⟨object, calls⟩ := found
  dsimp only
  rw [apply_ite reading]
  split
  next => rfl
  next hcalls =>
    have hne : calls ≠ [] := by
      rintro rfl
      exact hcalls rfl
    rw [apply_ite reading, pageCalls_eq object bind calls hne]
    rfl

end Page

/-! ### Statements -/

section Statement

variable (bind : Option String) (scope : Scope)

/-- The single action of a chain, by the first shape that fits. -/
def chainAction (links : List Link) : Reading Action :=
  reading (sleepAction? links)
    <|> navigationAction links bind
    <|> waitAction links scope
    <|> assertionAction links
    <|> interactionAction links bind scope
    <|> logAction links

/-- The actions of an expression whose result is kept in `bind`. -/
def expressionActions (expr : String) : Option (List Action) := do
  match ← (callChain expr).run with
  | none => return [.unmapped expr]
  | some links =>
      match ← (chainAction bind scope links).run with
      | some action => return [action]
      | none => return (← (pageActions bind links).run).getD [.unmapped expr]

/-- The actions of a returned expression. -/
def returnActions (expr : String) : Option (List Action) := do
  if (← (callChain expr).run).any fun links ↦ links.any fun l ↦ l.args?.isSome then
    let actions ← expressionActions (some "result") scope expr
    return if actions.getLast?.any Action.isBound then actions ++ [.returns "$\x7bresult\x7d"]
      else actions
  else return [.returns expr]

/-- The selection list that a binding wraps an element in. -/
def boundSelect (links : List Link) : Reading Element :=
  match links with
  | [call] =>
      if call.name == "new Select" then do resolve scope (← onlyArgument call) else failure
  | _ => failure

/-- The actions of a binding, and the scope after it. -/
def bindingActions (statement : String) (b : Binding) : Option (List Action × Scope) := do
  match ← (parseElement b.value).run with
  | some element => return ([], { scope with locals := (b.name, element) :: scope.locals })
  | none =>
      match ← (callChain b.value).run with
      | none => return ([.assign b.name b.value], scope)
      | some links =>
          match ← (boundSelect scope links).run with
          | some element =>
              return ([], { scope with selects := (b.name, element) :: scope.selects })
          | none =>
              if isConstruction links then return ([], scope)
              else if links.all fun l ↦ l.args?.isNone then
                return ([.assign b.name b.value], scope)
              else
                let actions ← expressionActions (some b.name) scope b.value
                if actions.all Action.isUnmapped then return ([.unmapped statement], scope)
                else return (actions, scope)

/-- The actions of one statement, and the scope after it. -/
def statementActions (statement : String) : Option (List Action × Scope) := do
  if statement.isEmpty || statement == "return" || statement == "return this" then
    return ([], scope)
  else
    match afterStart? "return " statement with
    | some expr => return (← returnActions scope (trim expr), scope)
    | none =>
        match binding? statement with
        | some b => bindingActions scope statement b
        | none => return (← expressionActions none scope statement, scope)

/-- The actions of statements in order, with the scope handed on. -/
def actionsFrom : Scope → List Statement → Option (List Action)
  | _, [] => some []
  | scope, s :: rest => do
      let (actions, next) ← statementActions scope s.text
      return actions ++ (← actionsFrom next rest)

/-- The actions of a method body, in source order. -/
def extractActions (body : String) (elements : Assoc Locator) : Option (List Action) :=
  actionsFrom { elements } (statements body)

theorem chainAction_eq (links : List Link) :
    chainAction bind scope links = reading (chainAction? links bind scope) := by
  rw [chainAction, navigationAction_eq, waitAction_eq, assertionAction_eq, interactionAction_eq,
    logAction_eq, chainAction?]
  simp only [reading_orElse]

theorem expressionActions_eq (expr : String) : expressionActions bind scope expr =
    some (SuiteMigration.expressionActions expr bind scope) := by
  unfold expressionActions SuiteMigration.expressionActions
  rw [callChain_eq, run_reading]
  cases callChain? expr with
  | none => rfl
  | some links =>
    simp only [Option.bind_eq_bind, Option.bind_some, chainAction_eq, pageActions_eq, run_reading]
    cases chainAction? links bind scope <;> rfl

theorem returnActions_eq (expr : String) :
    returnActions scope expr = some (SuiteMigration.returnActions expr scope) := by
  unfold returnActions SuiteMigration.returnActions
  rw [callChain_eq, run_reading, expressionActions_eq, apply_ite some]
  simp only [Option.bind_eq_bind, Option.bind_some]
  rfl

theorem boundSelect_eq (links : List Link) :
    boundSelect scope links = reading (boundSelect? links scope) := by
  unfold boundSelect boundSelect?
  match links with
  | [] | _ :: _ :: _ => rfl
  | [call] =>
    dsimp only
    rw [apply_ite reading]
    refine if_congr Iff.rfl ?_ rfl
    simp only [resolve_eq]
    exact onlyArgument_bind call scope.resolve?

theorem bindingActions_eq (statement : String) (b : Binding) :
    bindingActions scope statement b =
      some (SuiteMigration.bindingActions statement b scope) := by
  unfold bindingActions SuiteMigration.bindingActions
  rw [parseElement_eq, callChain_eq]
  simp only [run_reading, boundSelect_eq, expressionActions_eq, Option.bind_eq_bind,
    Option.bind_some]
  cases parseElement? b.value with
  | some element => rfl
  | none =>
    cases callChain? b.value with
    | none => rfl
    | some links =>
      dsimp only
      cases boundSelect? links scope with
      | some element => rfl
      | none =>
        simp only [apply_ite some]
        rfl

theorem statementActions_eq (statement : String) :
    statementActions scope statement =
      some (SuiteMigration.statementActions statement scope) := by
  unfold statementActions SuiteMigration.statementActions
  rw [apply_ite some]
  refine if_congr Iff.rfl rfl ?_
  cases afterStart? "return " statement with
  | some expr =>
    dsimp only
    rw [returnActions_eq]
    rfl
  | none =>
    cases binding? statement with
    | some b => exact bindingActions_eq scope statement b
    | none =>
      dsimp only
      rw [expressionActions_eq]
      rfl

theorem actionsFrom_eq (list : List Statement) :
    actionsFrom scope list = some (SuiteMigration.actionsFrom scope list) := by
  induction list generalizing scope with
  | nil => rfl
  | cons s rest ih =>
    rw [actionsFrom, statementActions_eq, Option.bind_eq_bind, Option.bind_some]
    dsimp only
    rw [ih]
    rfl

theorem extractActions_eq (body : String) (elements : Assoc Locator) :
    extractActions body elements = some (SuiteMigration.extractActions body elements) :=
  actionsFrom_eq { elements } (statements body)

end Statement

/-! ### Steps and locator constants -/

/-- The step that an annotation of a method defines. -/
def annotatedStep (m : Method) (elements : Assoc Locator) (a : AnnotationUse) :
    Reading StepDefinition := do
  let kind ← reading (StepKind.ofLabel? a.name)
  let pattern ← reading a.literal?
  let actions ← OptionT.lift (extractActions m.body elements)
  return ⟨kind, pattern, m.name, m.params, actions⟩

/-- The steps of a class, one for each step annotation, in order. -/
def stepsOfOutline (o : Outline) : Option (List StepDefinition) := do
  let elements ← elementNames o
  return (← o.methods.mapM fun m ↦ collect (annotatedStep m elements) m.annotations).flatten

/-- The steps that a source defines. -/
def extractSteps (source : String) : Attempt (List StepDefinition) := do
  let o ← Java.InPlace.outline source
  stepsOfOutline o

/-- The type that a field declares: the word before its name. -/
def typeName (f : Field) : Reading String := do
  let declared := words f.declarator
  if 2 ≤ declared.length then entry declared (← OptionT.lift (minus? declared.length 2))
  else failure

/-- The locator that a string constant holds. -/
def constantOfField (f : Field) : Reading LocatorConstant := do
  if (← OptionT.lift (typeName f).run) == some "String" then
    let name ← reading f.name?
    let value ← reading (firstLiteral? (← reading f.initializer?))
    return ⟨name, ⟨inferStrategy value, value⟩⟩
  else failure

/-- The constants so far and the next one, if its name is new. -/
def addConstant (constants : List LocatorConstant) (c : LocatorConstant) : List LocatorConstant :=
  if constants.any (fun k ↦ k.name == c.name) then constants else constants ++ [c]

/-- The locator constants of a class. -/
def constantsOfOutline (o : Outline) : Option (List LocatorConstant) := do
  let elements ← elementDeclarations o
  let constants ← collect constantOfField o.fields
  return constants.foldl addConstant (elements.map fun d ↦ ⟨d.name, d.locator⟩)

/-- The locator constants of a source. -/
def locatorConstants (source : String) : Attempt (List LocatorConstant) := do
  let o ← Java.InPlace.outline source
  constantsOfOutline o

theorem annotatedStep_eq (m : Method) (elements : Assoc Locator) (a : AnnotationUse) :
    annotatedStep m elements a = reading (stepOfAnnotation? m elements a) := by
  unfold annotatedStep stepOfAnnotation?
  simp only [reading_bind, extractActions_eq, lift_some_bind_reading]
  rfl

theorem stepsOfOutline_eq (o : Outline) :
    stepsOfOutline o = some (SuiteMigration.stepsOfOutline o) := by
  have hsteps (elements : Assoc Locator) :
      (fun m : Method ↦ collect (annotatedStep m elements) m.annotations) =
        fun m ↦ pure (m.annotations.filterMap (stepOfAnnotation? m elements)) :=
    funext fun m ↦ collect_eq (annotatedStep_eq m elements) m.annotations
  rw [stepsOfOutline, elementNames_eq, Option.bind_eq_bind, Option.bind_some, hsteps,
    List.mapM_pure, SuiteMigration.stepsOfOutline, List.flatMap_def]
  rfl

theorem typeName_eq (f : Field) : typeName f = reading f.typeName? := by
  unfold typeName Field.typeName?
  obtain ⟨reversed, hwords⟩ : ∃ reversed : List String, words f.declarator = reversed.reverse :=
    ⟨_, (List.reverse_reverse _).symm⟩
  rw [hwords, List.reverse_reverse]
  dsimp only
  rcases reversed with _ | ⟨name, _ | ⟨type, others⟩⟩
  · rfl
  · rfl
  · have hlength : (name :: type :: others).reverse.length = others.length + 2 :=
      List.length_reverse
    have htype : (name :: type :: others).reverse[others.length]? = some type := by
      simp
    rw [hlength, if_pos (Nat.le_add_left 2 _),
      minus?_eq_some_iff.mpr (Nat.add_comm 2 others.length), lift_some_bind_reading,
      entry_of_getElem? htype]

theorem constantOfField_eq (f : Field) : constantOfField f = reading (constantOfField? f) := by
  unfold constantOfField constantOfField?
  rw [typeName_eq, run_reading, lift_some_bind_reading, apply_ite reading]
  simp only [reading_bind]
  rfl

theorem constantsOfOutline_eq (o : Outline) :
    constantsOfOutline o = some (SuiteMigration.constantsOfOutline o) := by
  rw [constantsOfOutline, elementDeclarations_eq, collect_eq constantOfField_eq]
  simp only [Option.bind_eq_bind, Option.bind_some, List.foldl_filterMap]
  refine congrArg some (congrArg (List.foldl · _ _) (funext fun constants ↦ funext fun f ↦ ?_))
  cases constantOfField? f <;> rfl

/-- The steps of a source are read in place as they are in the text. -/
theorem extractSteps_eq (source : String) :
    extractSteps source = attempt (SuiteMigration.extractSteps source) := by
  rw [extractSteps, SuiteMigration.extractSteps, attempt_map, Java.InPlace.outline_eq]
  simp only [stepsOfOutline_eq]
  exact (map_eq_pure_bind _ _).symm

/-- The locator constants of a source are read in place as they are in the text. -/
theorem locatorConstants_eq (source : String) :
    locatorConstants source = attempt (SuiteMigration.locatorConstants source) := by
  rw [locatorConstants, SuiteMigration.locatorConstants, attempt_map, Java.InPlace.outline_eq]
  simp only [constantsOfOutline_eq]
  exact (map_eq_pure_bind _ _).symm

/-! ### Sources with symbols in ASCII -/

/-- A reading in place ends with a result, which is not the failure at an unreadable name. -/
structure Finishes {α : Type} (inPlace : Attempt α) (result : Except OutlineError α) : Prop where
  ends : inPlace = ExceptT.mk (some result)
  readable : ∀ before symbol, result ≠ .error (.unreadableName before symbol)

theorem finishes_of_readable {α : Type} {inPlace : Attempt α} {result : Except OutlineError α}
    (heq : inPlace = attempt result) (h : Readable result) : Finishes inPlace result where
  ends := heq.trans (attempt_eq_mk h)
  readable before symbol hresult := by
    cases h _ hresult

/-- In a source whose symbols are all in ASCII no reading breaks off: not the outline, the steps or
the locator constants. The elements of an outline are read without a break from any source. -/
theorem extraction_finishes {source : String} (h : HasAsciiSymbols source.toList) :
    Finishes (Java.InPlace.outline source) (outline source) ∧
      Finishes (extractSteps source) (SuiteMigration.extractSteps source) ∧
      Finishes (locatorConstants source) (SuiteMigration.locatorConstants source) ∧
      ∀ o, elementDeclarations o = some (SuiteMigration.elementDeclarations o) := by
  have hreadable := readable_outline h
  exact ⟨finishes_of_readable (Java.InPlace.outline_eq source) hreadable,
    finishes_of_readable (extractSteps_eq source) (hreadable.map _),
    finishes_of_readable (locatorConstants_eq source) (hreadable.map _), elementDeclarations_eq⟩

/-- A class with letters and white space outside ASCII in names, in literals behind a backslash and
in comments. -/
def accentedClass : String :=
  "/* Ação */ class Página \x7b\n  By botão = By.id(\"\\ñ\");\n" ++
    "  @Given(\"o\u00a0botão \\é\") // três\n" ++
    "  public void abreAção(String número) \x7b\n    botão.click();\u2003\n  \x7d\n\x7d"

theorem extraction_finishes_accentedClass :
    HasAsciiSymbols accentedClass.toList ∧
      Finishes (Java.InPlace.outline accentedClass) (outline accentedClass) ∧
      Finishes (extractSteps accentedClass) (SuiteMigration.extractSteps accentedClass) ∧
      Finishes (locatorConstants accentedClass)
        (SuiteMigration.locatorConstants accentedClass) := by
  have hsymbols : HasAsciiSymbols accentedClass.toList := by decide +kernel
  obtain ⟨houtline, hsteps, hconstants, -⟩ := extraction_finishes hsymbols
  exact ⟨hsymbols, houtline, hsteps, hconstants⟩

end SuiteMigration.InPlace
