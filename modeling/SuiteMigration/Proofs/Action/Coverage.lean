import Mathlib.Data.List.Forall2
import SuiteMigration.Action.Extraction
import SuiteMigration.Robot.ActionRow

/-!
No statement of a method body disappears. The actions of a body are those of its statements one
after the other, and a statement is without action only if it returns nothing, names an element or
builds an object. Every action has a row, so every other statement is seen in the keyword file.
-/

set_option autoImplicit false
set_option relaxedAutoImplicit false

namespace SuiteMigration

open SuiteMigration.Text SuiteMigration.Java SuiteMigration.Robot

/-- The actions of statements, one list for each of them, with the scope handed on. -/
def actionLists : Scope → List Statement → List (List Action)
  | _, [] => []
  | scope, s :: rest =>
      let (actions, next) := statementActions s.text scope
      actions :: actionLists next rest

/-- Whether an expression builds an object and does nothing else: a single `new T`, with or without
arguments. -/
def isNewObject (expr : String) : Bool :=
  (callChain? expr).any isConstruction

/-- A statement that stands for no action: a return without a value, or a binding that names an
element or builds an object. -/
inductive Silent (statement : String) : Prop where
  | bareReturn (h : statement = "return" ∨ statement = "return this")
  | binding (b : Binding) (hreturn : afterStart? "return " statement = none)
      (hbinding : binding? statement = some b)
      (hvalue : (parseElement? b.value).isSome = true ∨ isNewObject b.value = true)

/-! ### Expressions -/

theorem pageCallActions_ne_nil (object : String) (bind : Option String) {calls : List Link}
    (h : calls ≠ []) : pageCallActions object bind calls ≠ [] := by
  fun_cases pageCallActions object bind calls with
  | case1 => exact absurd rfl h
  | case2 => exact List.cons_ne_nil _ _
  | case3 => exact List.cons_ne_nil _ _

theorem pageActions?_ne_nil {links : List Link} {bind : Option String} {actions : List Action}
    (h : pageActions? links bind = some actions) : actions ≠ [] := by
  obtain ⟨⟨object, calls⟩, _, h⟩ := Option.bind_eq_some_iff.mp h
  dsimp only at h
  split at h
  · cases h
  next hcalls =>
    split at h
    · cases h
    · rw [← Option.some.inj h]
      refine pageCallActions_ne_nil object bind fun hnil ↦ hcalls ?_
      rw [hnil]
      rfl

/-- An expression that is no known action stays as it is. -/
theorem expressionActions_ne_nil (expr : String) (bind : Option String) (scope : Scope) :
    expressionActions expr bind scope ≠ [] := by
  unfold expressionActions
  split
  · exact List.cons_ne_nil _ _
  next links _ =>
    split
    · exact List.cons_ne_nil _ _
    · cases hpage : pageActions? links bind with
      | none => exact List.cons_ne_nil _ _
      | some actions => exact pageActions?_ne_nil hpage

theorem returnActions_ne_nil (expr : String) (scope : Scope) : returnActions expr scope ≠ [] := by
  have hexpression := expressionActions_ne_nil expr (some "result") scope
  unfold returnActions
  split
  · dsimp only
    split
    · exact List.append_ne_nil_of_left_ne_nil hexpression _
    · exact hexpression
  · exact List.cons_ne_nil _ _

/-! ### Bindings -/

theorem isConstruction_of_boundSelect? {links : List Link} {scope : Scope} {element : Element}
    (h : boundSelect? links scope = some element) : isConstruction links = true := by
  unfold boundSelect? at h
  split at h
  next call =>
    split at h
    next hname =>
      rw [isConstruction, eq_of_beq hname]
      decide +kernel
    next => cases h
  next => cases h

theorem bindingActions_eq_nil_iff (statement : String) (b : Binding) (scope : Scope) :
    (bindingActions statement b scope).1 = [] ↔
      (parseElement? b.value).isSome = true ∨ isNewObject b.value = true := by
  unfold bindingActions
  cases helement : parseElement? b.value with
  | some element => simp
  | none =>
    cases hchain : callChain? b.value with
    | none => simp [isNewObject, hchain]
    | some links =>
      simp only [isNewObject, hchain, Option.any_some, Option.isSome_none, Bool.false_eq_true,
        false_or]
      split
      next element hselect => simp [isConstruction_of_boundSelect? hselect]
      next =>
        split
        next hnew => simp [hnew]
        next hnew =>
          rw [Bool.eq_false_iff.mpr hnew]
          split
          · simp
          · split
            · simp
            · simpa using expressionActions_ne_nil b.value (some b.name) scope

/-! ### Statements -/

/-- A statement has no action if and only if it is silent. -/
theorem statementActions_eq_nil_iff {statement : String} (hne : statement.isEmpty = false)
    (scope : Scope) : (statementActions statement scope).1 = [] ↔ Silent statement := by
  unfold statementActions
  split
  next hbare =>
    rw [hne, Bool.false_or, Bool.or_eq_true, beq_iff_eq, beq_iff_eq] at hbare
    exact ⟨fun _ ↦ .bareReturn hbare, fun _ ↦ rfl⟩
  next hbare =>
    have hnot : ¬ (statement = "return" ∨ statement = "return this") := by
      intro h
      rw [hne, Bool.false_or, Bool.or_eq_true, beq_iff_eq, beq_iff_eq] at hbare
      exact hbare h
    split
    next expr hexpr =>
      dsimp only
      refine ⟨fun h ↦ absurd h (returnActions_ne_nil _ _), fun h ↦ ?_⟩
      cases h with
      | bareReturn h => exact absurd h hnot
      | binding b hreturn _ _ =>
        rw [hexpr] at hreturn
        cases hreturn
    next hreturn =>
      split
      next b hbinding =>
        rw [bindingActions_eq_nil_iff]
        refine ⟨.binding b hreturn hbinding, fun h ↦ ?_⟩
        cases h with
        | bareReturn h => exact absurd h hnot
        | binding other _ hother hvalue =>
          rw [hbinding] at hother
          exact Option.some.inj hother ▸ hvalue
      next hbinding =>
        dsimp only
        refine ⟨fun h ↦ absurd h (expressionActions_ne_nil _ _ _), fun h ↦ ?_⟩
        cases h with
        | bareReturn h => exact absurd h hnot
        | binding b _ hother _ =>
          rw [hbinding] at hother
          cases hother

theorem Pending.statement?_isEmpty {p : Pending} {s : Statement} (h : p.statement? = some s) :
    s.text.isEmpty = false := by
  unfold Pending.statement? at h
  dsimp only at h
  split at h
  · cases h
  next htext =>
    rw [Bool.or_eq_true, not_or] at htext
    rw [← Option.some.inj h]
    exact Bool.eq_false_iff.mpr htext.1

theorem statementsFrom_isEmpty (offset : Nat) (p : Pending) (ms : List Mark) :
    ∀ s ∈ statementsFrom offset p ms, s.text.isEmpty = false := by
  induction ms generalizing offset p with
  | nil => exact fun s hs ↦ Pending.statement?_isEmpty (Option.mem_toList.mp hs)
  | cons mark rest ih =>
    intro s hs
    rw [statementsFrom] at hs
    dsimp only at hs
    split at hs
    · exact ih _ _ s hs
    · exact ih _ _ s hs
    · exact ih _ _ s hs
    · exact ih _ _ s hs
    · split at hs
      · rcases List.mem_append.mp hs with hs | hs
        · exact Pending.statement?_isEmpty (Option.mem_toList.mp hs)
        · exact ih _ _ s hs
      · exact ih _ _ s hs

/-! ### Bodies -/

theorem actionsFrom_eq_flatten (scope : Scope) (list : List Statement) :
    actionsFrom scope list = (actionLists scope list).flatten := by
  induction list generalizing scope with
  | nil => rfl
  | cons s rest ih =>
    rw [actionLists, List.flatten_cons, ← ih]
    rfl

theorem actionLists_silent {list : List Statement} (hne : ∀ s ∈ list, s.text.isEmpty = false)
    (scope : Scope) :
    List.Forall₂ (fun s actions ↦ actions = [] ↔ Silent s.text) list (actionLists scope list) := by
  induction list generalizing scope with
  | nil => exact .nil
  | cons s rest ih =>
    refine .cons (statementActions_eq_nil_iff (hne s List.mem_cons_self) scope) ?_
    exact ih (fun other hother ↦ hne other (List.mem_cons_of_mem _ hother)) _

theorem callRows_ne_nil (args : List String) (cells : List String → List String) :
    callRows args cells ≠ [] :=
  List.append_ne_nil_of_right_ne_nil _ (List.cons_ne_nil _ _)

/-- Every action has a row, be it a comment on what is left to do. -/
theorem actionRows_ne_nil (action : Action) : actionRows action ≠ [] := by
  cases action with
  | interaction element action args bind =>
    rw [actionRows]
    split
    · exact List.cons_ne_nil _ _
    · split
      · exact List.append_ne_nil_of_right_ne_nil _ (List.cons_ne_nil _ _)
      · exact callRows_ne_nil _ _
  | waitFor kind element =>
    rw [actionRows]
    split <;> exact List.cons_ne_nil _ _
  | returns value =>
    rw [actionRows]
    split
    · exact List.cons_ne_nil _ _
    · exact callRows_ne_nil _ _
  | navigate url => exact callRows_ne_nil _ _
  | pageCall object method args bind =>
    rw [actionRows]
    exact callRows_ne_nil _ _
  | assertion kind args => exact callRows_ne_nil _ _
  | log message => exact callRows_ne_nil _ _
  | assign name value =>
    rw [actionRows]
    exact callRows_ne_nil _ _
  | browser call bind => exact List.cons_ne_nil _ _
  | sleep millis => exact List.cons_ne_nil _ _
  | unmapped statement => exact List.cons_ne_nil _ _

theorem rowsOfActions_eq_nil_iff (actions : List Action) :
    rowsOfActions actions = [] ↔ actions = [] := by
  refine ⟨fun h ↦ ?_, fun h ↦ by rw [h]; rfl⟩
  cases actions with
  | nil => rfl
  | cons action rest =>
    exact absurd (List.flatMap_eq_nil_iff.mp h action List.mem_cons_self) (actionRows_ne_nil action)

theorem rowsOfActions_flatten (lists : List (List Action)) :
    rowsOfActions lists.flatten = (lists.map rowsOfActions).flatten := by
  induction lists with
  | nil => rfl
  | cons actions rest ih =>
    rw [List.map_cons, List.flatten_cons, List.flatten_cons, ← ih]
    exact List.flatMap_append

/-- The actions of a body are those of its statements, in their order, and those of a statement are
none if and only if it is silent. Every action has a row, so the rows of a body are those of its
statements, in their order, and every statement that is not silent has one. -/
theorem statements_covered (body : String) (elements : Assoc Locator) :
    let lists := actionLists { elements } (statements body)
    extractActions body elements = lists.flatten ∧
      List.Forall₂ (fun s actions ↦ actions = [] ↔ Silent s.text) (statements body) lists ∧
      (∀ action, actionRows action ≠ []) ∧
      rowsOfActions (extractActions body elements) = (lists.map rowsOfActions).flatten ∧
      List.Forall₂ (fun s rows ↦ rows = [] ↔ Silent s.text) (statements body)
        (lists.map rowsOfActions) := by
  intro lists
  have hactions : extractActions body elements = lists.flatten :=
    actionsFrom_eq_flatten { elements } (statements body)
  have hsilent : List.Forall₂ (fun s actions ↦ actions = [] ↔ Silent s.text) (statements body)
      lists :=
    actionLists_silent (statementsFrom_isEmpty _ _ _) { elements }
  refine ⟨hactions, hsilent, actionRows_ne_nil, ?_, ?_⟩
  · rw [hactions, rowsOfActions_flatten]
  · rw [List.forall₂_map_right_iff]
    exact hsilent.imp fun s actions h ↦ (rowsOfActions_eq_nil_iff actions).trans h

/-- A binding is silent also where the construction has no arguments, which is no call. -/
theorem construction_without_arguments_silent :
    let body := "x = new Foo;"
    (statements body).map Statement.text = ["x = new Foo"] ∧ extractActions body [] = [] ∧
      rowsOfActions (extractActions body []) = [] ∧
      binding? "x = new Foo" = some ⟨"x", "new Foo"⟩ ∧ parseElement? "new Foo" = none ∧
      ¬ ∃ name args, callChain? "new Foo" = some [⟨name, some args⟩] := by
  have hchain : callChain? "new Foo" = some [⟨"new Foo", none⟩] := by decide +kernel
  refine ⟨?_, ?_, ?_, ?_, ?_, ?_⟩
  · decide +kernel
  · decide +kernel
  · decide +kernel
  · decide +kernel
  · decide +kernel
  · rintro ⟨name, args, h⟩
    rw [hchain] at h
    cases h

end SuiteMigration
