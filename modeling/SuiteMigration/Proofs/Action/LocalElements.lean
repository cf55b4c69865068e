import SuiteMigration.Proofs.Action.Coverage
import SuiteMigration.Proofs.Action.InlineLocator

/-!
Local variables that stand for elements. An action on a variable has the inline locator of the
latest assignment whose value is an element. An assignment of any other value does not end that: the
variable keeps the element that it had before.
-/

set_option autoImplicit false
set_option relaxedAutoImplicit false

namespace SuiteMigration

open SuiteMigration.Text SuiteMigration.Java

/-! ### Assignments -/

/-- The assignment that a statement is, if it does not return. -/
def assigned? (statement : String) : Option Binding :=
  match afterStart? "return " statement with
  | some _ => none
  | none => binding? statement

/-- The values that statements assign to a variable, in order. -/
def assignedValues (name : String) (list : List Statement) : List String :=
  list.filterMap fun s ↦ ((assigned? s.text).filter (·.name == name)).map Binding.value

/-- What the names stand for after some statements. -/
def scopeAfter : Scope → List Statement → Scope
  | scope, [] => scope
  | scope, s :: rest => scopeAfter (statementActions s.text scope).2 rest

theorem getElem?_actionLists (scope : Scope) (list : List Statement) (i : Nat) :
    (actionLists scope list)[i]? =
      list[i]?.map fun s ↦ (statementActions s.text (scopeAfter scope (list.take i))).1 := by
  induction list generalizing scope i with
  | nil => simp [actionLists]
  | cons s rest ih =>
    cases i with
    | zero => rfl
    | succ i => exact ih _ i

theorem locals_bindingActions (statement : String) (b : Binding) (scope : Scope) :
    (bindingActions statement b scope).2.locals =
      ((parseElement? b.value).map (b.name, ·)).toList ++ scope.locals := by
  unfold bindingActions
  split
  next element helement => rw [helement]; rfl
  next hnone =>
    rw [hnone]
    split
    · rfl
    · split
      · rfl
      · split
        · rfl
        · split
          · rfl
          · dsimp only
            split <;> rfl

theorem assigned?_of_return {statement expr : String}
    (h : afterStart? "return " statement = some expr) : assigned? statement = none := by
  rw [assigned?, h]

theorem assigned?_eq_binding? {statement : String} (h : afterStart? "return " statement = none) :
    assigned? statement = binding? statement := by
  rw [assigned?, h]

theorem assigned?_of_bare {statement : String}
    (h : (statement.isEmpty || statement == "return" || statement == "return this") = true) :
    assigned? statement = none := by
  rw [Bool.or_eq_true, Bool.or_eq_true, String.isEmpty_iff, beq_iff_eq, beq_iff_eq] at h
  obtain (rfl | rfl) | rfl := h <;> decide +kernel

/-- One statement: the variable stands for the element that is assigned, or else for what it stood
for before. -/
theorem lookup_statementActions (name statement : String) (scope : Scope) :
    (statementActions statement scope).2.locals.lookup name =
      (((assigned? statement).filter (·.name == name)).bind fun b ↦ parseElement? b.value).or
        (scope.locals.lookup name) := by
  unfold statementActions
  split
  next hbare => rw [assigned?_of_bare hbare]; rfl
  next =>
    split
    next expr hreturn => rw [assigned?_of_return hreturn]; rfl
    next hreturn =>
      rw [assigned?_eq_binding? hreturn]
      split
      next b hbinding =>
        rw [locals_bindingActions, hbinding]
        by_cases hname : b.name = name
        · subst hname
          rw [Option.filter_some, if_pos (beq_self_eq_true _), Option.bind_some]
          cases parseElement? b.value <;> simp
        · have hother : (name == b.name) = false := beq_eq_false_iff_ne.mpr (Ne.symm hname)
          rw [Option.filter_some, if_neg (by simpa using hname), Option.bind_none, Option.none_or]
          cases parseElement? b.value <;> simp [List.lookup_cons, hother]
      next hbinding => rw [hbinding]; rfl

theorem assignedValues_cons (name : String) (s : Statement) (rest : List Statement) :
    assignedValues name (s :: rest) =
      (((assigned? s.text).filter (·.name == name)).map Binding.value).toList ++
        assignedValues name rest := by
  rw [assignedValues, List.filterMap_cons]
  cases ((assigned? s.text).filter (·.name == name)).map Binding.value <;> rfl

/-- All statements: the variable stands for the latest element that was assigned. -/
theorem lookup_scopeAfter (name : String) (scope : Scope) (list : List Statement) :
    (scopeAfter scope list).locals.lookup name =
      ((assignedValues name list).reverse.findSome? parseElement?).or
        (scope.locals.lookup name) := by
  induction list generalizing scope with
  | nil => rfl
  | cons s rest ih =>
    rw [scopeAfter, ih, lookup_statementActions, ← Option.or_assoc, assignedValues_cons]
    cases (assigned? s.text).filter (·.name == name) with
    | none => simp
    | some b => simp [List.findSome?_append]

/-! ### Plain names -/

/-- Whether a text is a name by itself, without white space, points, calls and quotes. -/
def isPlainName (name : String) : Bool :=
  name.toList.all fun c ↦ !isBlank c && c != '.' && c != '(' && c != '"'

theorem mem_of_linkText {text : List Char} {link : Link} (h : LinkText text link)
    (hcall : link.args?.isSome = true) : '(' ∈ text := by
  cases h with
  | reference => cases hcall
  | call => simp

section PlainName

variable {name : String} (hname : isPlainName name = true)

include hname

theorem not_blank_of_isPlainName : ∀ c ∈ name.toList, isBlank c = false := by
  intro c hc
  have hplain := List.all_eq_true.mp hname c hc
  simp only [Bool.and_eq_true, Bool.not_eq_true'] at hplain
  exact hplain.1.1.1

theorem not_mem_of_isPlainName : '.' ∉ name.toList ∧ '(' ∉ name.toList ∧ '"' ∉ name.toList := by
  refine ⟨fun h ↦ ?_, fun h ↦ ?_, fun h ↦ ?_⟩ <;>
    exact absurd (List.all_eq_true.mp hname _ h) (by decide)

/-- A plain name is a chain of one link, which is no call. -/
theorem callChain?_of_isPlainName {links : List Link} (h : callChain? name = some links) :
    ∃ word, links = [⟨word, none⟩] := by
  obtain ⟨hpoint, hparenthesis, -⟩ := not_mem_of_isPlainName hname
  obtain ⟨all, htext, rfl⟩ := callChain?_eq_some_iff.mp h
  generalize name.toList = cs at hpoint hparenthesis htext
  cases htext with
  | @last _ link hlink =>
    obtain ⟨word, args?⟩ := link
    cases args? with
    | none => exact ⟨word, rfl⟩
    | some args => exact absurd (mem_of_linkText hlink rfl) hparenthesis
  | more => exact absurd (by simp) hpoint

theorem elementWithin_of_isPlainName (fuel : Nat) :
    (callChain? name).bind (elementWithin fuel) = none := by
  rw [Option.bind_eq_none_iff]
  intro links hlinks
  obtain ⟨word, rfl⟩ := callChain?_of_isPlainName hname hlinks
  cases fuel with
  | zero => rfl
  | succ fuel => simp [elementWithin, isLocatorCall, Link.isCall]

theorem resolve?_of_isPlainName {target : String} (htarget : trim target = name) (scope : Scope) :
    scope.resolve? target = (scope.locals.lookup name).or
      (if (scope.elements.lookup name).isSome then some (.named name) else none) := by
  have hparse : parseElement? target = none := by
    rw [parseElement?, htarget, elementWithin_of_isPlainName hname]
  have htrim : Chars.trim target.toList = name.toList := by
    rw [← htarget, trim, String.toList_ofList]
  have hthis (fuel : Nat) : dropStarts "this.".toList fuel name.toList = name.toList := by
    cases fuel with
    | zero => rfl
    | succ fuel =>
      rw [dropStarts]
      split
      next rest hrest =>
        refine absurd ?_ (not_mem_of_isPlainName hname).1
        rw [Chars.eq_append_of_afterStart? hrest]
        exact List.mem_append_left _ (by decide)
      next => rfl
  unfold Scope.resolve?
  split
  next found hfound =>
    rw [hparse] at hfound
    cases hfound
  next =>
    dsimp only
    rw [htrim, hthis, String.ofList_toList]
    cases scope.locals.lookup name <;> rfl

end PlainName

/-! ### Actions on elements -/

/-- The element that an action uses or waits for. -/
def Action.element? : Action → Option Element
  | .interaction element _ _ _ | .waitFor _ element => some element
  | _ => none

theorem Action.element?_ne_none {action : Action} {element : Element}
    (h : action.element? = some element) : action.element? ≠ none :=
  h ▸ Option.some_ne_none element

theorem element?_of_sleepAction? {links : List Link} {action : Action}
    (h : sleepAction? links = some action) : action.element? = none := by
  unfold sleepAction? at h
  split at h
  · split at h
    · obtain ⟨millis, _, rfl⟩ := Option.map_eq_some_iff.mp h
      rfl
    · cases h
  · cases h

theorem element?_of_navigatorAction? {links : List Link} {action : Action}
    (h : navigatorAction? links = some (some action)) : action.element? = none := by
  obtain ⟨position, _, h⟩ := Option.bind_eq_some_iff.mp h
  obtain ⟨next, _, h⟩ := Option.bind_eq_some_iff.mp (Option.some.inj h)
  split at h
  · obtain ⟨url, _, rfl⟩ := Option.map_eq_some_iff.mp h
    rfl
  · exact Option.some.inj h ▸ rfl
  · exact Option.some.inj h ▸ rfl
  · cases h

theorem element?_of_navigationAction? {links : List Link} {bind : Option String} {action : Action}
    (h : navigationAction? links bind = some action) : action.element? = none := by
  unfold navigationAction? at h
  split at h
  next result hresult => exact element?_of_navigatorAction? (h ▸ hresult)
  next =>
    split at h
    next call =>
      split at h
      · split at h
        · exact Option.some.inj h ▸ rfl
        · cases h
      · cases h
    next driver call =>
      split at h
      · split at h
        · obtain ⟨c, _, rfl⟩ := Option.map_eq_some_iff.mp h
          rfl
        · split at h
          · exact Option.some.inj h ▸ rfl
          · cases h
        · cases h
      · cases h
    next driver manage window maximize =>
      split at h
      · exact Option.some.inj h ▸ rfl
      · cases h
    next => cases h

theorem element?_of_matcherAssertion? {actual matcher : String} {action : Action}
    (h : matcherAssertion? actual matcher = some action) : action.element? = none := by
  obtain ⟨links, _, h⟩ := Option.bind_eq_some_iff.mp h
  split at h
  next outer =>
    obtain ⟨expected, _, h⟩ := Option.bind_eq_some_iff.mp h
    split at h
    case h_1 | h_2 =>
      split at h
      · split at h
        · obtain ⟨value, _, h⟩ := Option.bind_eq_some_iff.mp h
          exact Option.some.inj h ▸ rfl
        · exact Option.some.inj h ▸ rfl
      · exact Option.some.inj h ▸ rfl
    case h_3 => exact Option.some.inj h ▸ rfl
    case h_4 => cases h
  next => cases h

theorem element?_of_assertionAction? {links : List Link} {action : Action}
    (h : assertionAction? links = some action) : action.element? = none := by
  obtain ⟨last, _, h⟩ := Option.bind_eq_some_iff.mp h
  split at h
  · exact Option.some.inj h ▸ rfl
  · obtain ⟨position, _, h⟩ := Option.bind_eq_some_iff.mp h
    obtain ⟨subject, _, h⟩ := Option.bind_eq_some_iff.mp h
    dsimp only at h
    split at h
    · obtain ⟨kind, _, h⟩ := Option.bind_eq_some_iff.mp h
      obtain ⟨value, _, h⟩ := Option.bind_eq_some_iff.mp h
      exact Option.some.inj h ▸ rfl
    · split at h
      · exact element?_of_matcherAssertion? h
      · exact element?_of_matcherAssertion? h
      · cases h

theorem element?_of_logAction? {links : List Link} {action : Action}
    (h : logAction? links = some action) : action.element? = none := by
  obtain ⟨last, _, h⟩ := Option.bind_eq_some_iff.mp h
  obtain ⟨message, _, h⟩ := Option.bind_eq_some_iff.mp h
  split at h
  · exact Option.some.inj h ▸ rfl
  · cases h

/-- An action of a chain has an element only if the chain waits for one or calls a method of one. -/
theorem of_chainAction? {links : List Link} {bind : Option String} {scope : Scope} {action : Action}
    {element : Element} (h : chainAction? links bind scope = some action)
    (helement : action.element? = some element) :
    waitAction? links scope = some action ∨ interactionAction? links bind scope = some action := by
  have hne := Action.element?_ne_none helement
  unfold chainAction? at h
  simp only [Option.orElse_eq_orElse, Option.orElse_eq_or, Option.or_eq_some_iff] at h
  obtain h | ⟨_, h | ⟨_, h | ⟨_, h | ⟨_, h | ⟨_, h⟩⟩⟩⟩⟩ := h
  · exact absurd (element?_of_sleepAction? h) hne
  · exact absurd (element?_of_navigationAction? h) hne
  · exact Or.inl h
  · exact absurd (element?_of_assertionAction? h) hne
  · exact Or.inr h
  · exact absurd (element?_of_logAction? h) hne

theorem element?_of_mem_pageCallActions {object : String} {bind : Option String} {calls : List Link}
    {action : Action} (h : action ∈ pageCallActions object bind calls) :
    action.element? = none := by
  fun_induction pageCallActions object bind calls with
  | case1 => cases h
  | case2 call => rw [List.mem_singleton.mp h]; rfl
  | case3 call rest _ ih =>
    obtain rfl | hrest := List.mem_cons.mp h
    · rfl
    · exact ih hrest

/-- The expression of a statement: what it returns or assigns, or all of it. -/
def expressionOf (statement : String) : String :=
  match afterStart? "return " statement with
  | some expr => trim expr
  | none => ((binding? statement).map Binding.value).getD statement

section Element

variable {action : Action} {element : Element} (helement : action.element? = some element)

include helement

theorem chainAction?_of_mem {expr : String} {bind : Option String} {scope : Scope}
    (h : action ∈ expressionActions expr bind scope) :
    ∃ links, callChain? expr = some links ∧ chainAction? links bind scope = some action := by
  have hne := Action.element?_ne_none helement
  unfold expressionActions at h
  split at h
  next => exact absurd (List.mem_singleton.mp h ▸ rfl) hne
  next links hlinks =>
    split at h
    next found hfound => exact ⟨links, hlinks, List.mem_singleton.mp h ▸ hfound⟩
    next =>
      cases hpage : pageActions? links bind with
      | none =>
        rw [hpage] at h
        exact absurd (List.mem_singleton.mp h ▸ rfl) hne
      | some actions =>
        obtain ⟨⟨object, calls⟩, _, hcalls⟩ := Option.bind_eq_some_iff.mp hpage
        dsimp only at hcalls
        split at hcalls
        · cases hcalls
        · split at hcalls
          · cases hcalls
          · rw [hpage, Option.getD_some, ← Option.some.inj hcalls] at h
            exact absurd (element?_of_mem_pageCallActions h) hne

theorem mem_expressionActions_of_return {expr : String} {scope : Scope}
    (h : action ∈ returnActions expr scope) :
    action ∈ expressionActions expr (some "result") scope := by
  have hne := Action.element?_ne_none helement
  unfold returnActions at h
  split at h
  · dsimp only at h
    split at h
    · obtain h | h := List.mem_append.mp h
      · exact h
      · exact absurd (List.mem_singleton.mp h ▸ rfl) hne
    · exact h
  · exact absurd (List.mem_singleton.mp h ▸ rfl) hne

theorem mem_expressionActions_of_binding {statement : String} {b : Binding} {scope : Scope}
    (h : action ∈ (bindingActions statement b scope).1) :
    action ∈ expressionActions b.value (some b.name) scope := by
  have hne := Action.element?_ne_none helement
  unfold bindingActions at h
  split at h
  · cases h
  · split at h
    · exact absurd (List.mem_singleton.mp h ▸ rfl) hne
    · split at h
      · cases h
      · split at h
        · cases h
        · split at h
          · exact absurd (List.mem_singleton.mp h ▸ rfl) hne
          · dsimp only at h
            split at h
            · exact absurd (List.mem_singleton.mp h ▸ rfl) hne
            · dsimp only at h
              exact h

/-- An action with an element is that of the call chain of its statement. -/
theorem exists_chain_of_mem {statement : String} {scope : Scope}
    (h : action ∈ (statementActions statement scope).1) :
    ∃ links bind, callChain? (expressionOf statement) = some links ∧
      chainAction? links bind scope = some action := by
  have hchain {expr : String} {bind : Option String} (hexpr : expressionOf statement = expr)
      (hmem : action ∈ expressionActions expr bind scope) :
      ∃ links bind, callChain? (expressionOf statement) = some links ∧
        chainAction? links bind scope = some action := by
    obtain ⟨links, hlinks, haction⟩ := chainAction?_of_mem helement hmem
    exact ⟨links, bind, hexpr ▸ hlinks, haction⟩
  unfold statementActions at h
  split at h
  next => cases h
  next =>
    split at h
    next expr hreturn =>
      have hexpr : expressionOf statement = trim expr := by simp only [expressionOf, hreturn]
      dsimp only at h
      exact hchain hexpr (mem_expressionActions_of_return helement h)
    next hreturn =>
      split at h
      next b hbinding =>
        have hexpr : expressionOf statement = b.value := by
          simp only [expressionOf, hreturn, hbinding, Option.map_some, Option.getD_some]
        exact hchain hexpr (mem_expressionActions_of_binding helement h)
      next hbinding =>
        have hexpr : expressionOf statement = statement := by
          simp only [expressionOf, hreturn, hbinding, Option.map_none, Option.getD_none]
        dsimp only at h
        exact hchain hexpr h

end Element

/-! ### Variables in actions -/

/-- An action whose element is named by a variable: the variable is the receiver of the last call,
or the argument of a `findElement` before it, or what the awaited condition is about. A choice in a
selection list is no such action. -/
inductive NamesElement (name : String) (links : List Link) : Action → Element → Prop where
  | receiver {method : String} {args others : List String} {element : Element}
      {action : ElementAction} {bind : Option String}
      (hlinks : links = [⟨name, none⟩, ⟨method, some args⟩])
      (hselect : ∀ choice, action ≠ .select choice) :
      NamesElement name links (.interaction element action others bind) element
  | found {front : List Link} {target method : String} {more args others : List String}
      {element : Element} {action : ElementAction} {bind : Option String}
      (hlinks : links = front ++ [⟨"findElement", some (target :: more)⟩, ⟨method, some args⟩])
      (htarget : trim target = name) (hselect : ∀ choice, action ≠ .select choice) :
      NamesElement name links (.interaction element action others bind) element
  | awaited {call last : Link} {condition : List Link} {target : String} {kind : WaitKind}
      {element : Element} (hcall : links.find? (·.isCall "until") = some call)
      (hcondition : call.args.head?.bind callChain? = some condition)
      (hlast : condition.getLast? = some last) (hhead : last.args.head? = some target)
      (htarget : trim target = name) : NamesElement name links (.waitFor kind element) element

theorem NamesElement.element?_eq {name : String} {links : List Link} {action : Action}
    {element : Element} (h : NamesElement name links action element) :
    action.element? = some element := by
  cases h <;> rfl

theorem exists_of_waitAction? {links : List Link} {scope : Scope} {action : Action}
    (h : waitAction? links scope = some action) :
    ∃ call condition last target kind element, links.find? (·.isCall "until") = some call ∧
      call.args.head?.bind callChain? = some condition ∧ condition.getLast? = some last ∧
      last.args.head? = some target ∧ scope.resolve? target = some element ∧
      action = .waitFor kind element := by
  obtain ⟨call, hcall, h⟩ := Option.bind_eq_some_iff.mp h
  obtain ⟨arg, harg, h⟩ := Option.bind_eq_some_iff.mp h
  obtain ⟨condition, hcondition, h⟩ := Option.bind_eq_some_iff.mp h
  obtain ⟨last, hlast, h⟩ := Option.bind_eq_some_iff.mp h
  obtain ⟨kind, _, h⟩ := Option.bind_eq_some_iff.mp h
  obtain ⟨target, htarget, h⟩ := Option.bind_eq_some_iff.mp h
  obtain ⟨element, helement, h⟩ := Option.bind_eq_some_iff.mp h
  refine ⟨call, condition, last, target, kind, element, hcall, ?_, hlast, htarget, helement,
    (Option.some.inj h).symm⟩
  rw [harg, Option.bind_some, hcondition]

theorem exists_of_interactionAction? {links : List Link} {bind : Option String} {scope : Scope}
    {action : Action} (h : interactionAction? links bind scope = some action) :
    ∃ last args element used kept, links.getLast? = some last ∧ last.args? = some args ∧
      action = .interaction element used args kept ∧
      ((∃ choice, used = .select choice) ∨
        receiverElement? links.dropLast last.name scope = some element) := by
  obtain ⟨last, hlast, h⟩ := Option.bind_eq_some_iff.mp h
  obtain ⟨args, hargs, h⟩ := Option.bind_eq_some_iff.mp h
  dsimp only at h
  split at h
  next choice _ =>
    obtain ⟨element, _, h⟩ := Option.bind_eq_some_iff.mp h
    exact ⟨last, args, element, _, _, hlast, hargs, (Option.some.inj h).symm, Or.inl ⟨choice, rfl⟩⟩
  next =>
    obtain ⟨element, helement, h⟩ := Option.bind_eq_some_iff.mp h
    exact ⟨last, args, element, _, _, hlast, hargs, (Option.some.inj h).symm, Or.inr helement⟩

section Use

variable {name : String} (hname : isPlainName name = true)

include hname

theorem eq_of_resolve?_eq_some {target : String} (htarget : trim target = name) {scope : Scope}
    {element : Element} (h : scope.resolve? target = some element) :
    element = (scope.locals.lookup name).getD (.named name) := by
  rw [resolve?_of_isPlainName hname htarget] at h
  cases hlocal : scope.locals.lookup name with
  | some found =>
    rw [hlocal, Option.some_or] at h
    exact (Option.some.inj h).symm
  | none =>
    rw [hlocal, Option.none_or] at h
    split at h
    · exact (Option.some.inj h).symm
    · cases h

theorem trim_of_isPlainName : trim name = name := by
  have hblank := not_blank_of_isPlainName hname
  have htrim : Chars.trim name.toList = name.toList :=
    Chars.trim_eq_self (fun c hc ↦ hblank c (List.mem_of_mem_head? hc))
      fun c hc ↦ hblank c (List.mem_of_getLast? hc)
  rw [trim, htrim, String.ofList_toList]

theorem eq_of_receiverElement?_name {method : String} {scope : Scope} {element : Element}
    (h : receiverElement? [⟨name, none⟩] method scope = some element) :
    element = (scope.locals.lookup name).getD (.named name) := by
  have htrim := trim_of_isPlainName hname
  have hcall : Link.isCall ⟨name, none⟩ "findElement" = false := Bool.and_false _
  simp only [receiverElement?, List.getLast?_singleton, hcall, Bool.false_eq_true, if_false,
    Option.isNone_none, if_true] at h
  split at h
  next found hfound =>
    cases h
    exact eq_of_resolve?_eq_some hname htrim hfound
  next hnone =>
    rw [resolve?_of_isPlainName hname htrim, Option.or_eq_none_iff] at hnone
    rw [hnone.1]
    split at h
    · exact (Option.some.inj h).symm
    · cases h

/-- A variable in the argument of `findElement` is no inline locator. -/
theorem elementOfLinks?_of_isPlainName {target : String} (htarget : trim target = name)
    (front : List Link) (more : List String) :
    elementOfLinks? (front ++ [⟨"findElement", some (target :: more)⟩]) = none := by
  rw [elementOfLinks?, elementWithin]
  split
  next hlocator =>
    obtain ⟨qualifier, s, a, hlinks⟩ := (isLocatorCall_iff _).mp hlocator
    have hlast := congrArg List.getLast? hlinks
    rw [List.getLast?_concat] at hlast
    obtain ⟨-, rfl, rfl⟩ : "findElement" = s ∧ target = a ∧ more = [] := by simpa using hlast
    have hquoted : isQuoted (Chars.trim target.toList) = false := by
      refine Bool.eq_false_iff.mpr fun hquoted ↦ (not_mem_of_isPlainName hname).2.2 ?_
      obtain ⟨body, hbody⟩ := exists_of_isQuoted hquoted
      rw [← htarget, trim, String.toList_ofList, hbody]
      exact List.mem_cons_self
    simp [hlinks, locatorOfLinks?, Link.args, hquoted]
  next =>
    have hcall : Link.isCall ⟨"findElement", some (target :: more)⟩ "findElement" = true := rfl
    simp only [List.getLast?_concat, hcall, if_true]
    cases more with
    | nil =>
      simp only [Link.args, Option.getD_some, htarget]
      exact elementWithin_of_isPlainName hname _
    | cons => rfl

/-- The variable stands for the element that was assigned, or else for a declared one. -/
theorem NamesElement.element_eq {links : List Link} {bind : Option String} {scope : Scope}
    {action : Action} {element : Element} (h : NamesElement name links action element)
    (haction : chainAction? links bind scope = some action) :
    element = (scope.locals.lookup name).getD (.named name) := by
  -- an interaction is not awaited, and its element is that of the receiver
  have hreceiver {used : ElementAction} {args : List String} {kept : Option String}
      (huse : chainAction? links bind scope = some (.interaction element used args kept))
      (hselect : ∀ choice, used ≠ .select choice) : ∃ last, links.getLast? = some last ∧
        receiverElement? links.dropLast last.name scope = some element := by
    obtain hwait | hinteraction := of_chainAction? huse rfl
    · obtain ⟨_, _, _, _, _, _, _, _, _, _, _, hother⟩ := exists_of_waitAction? hwait
      cases hother
    · obtain ⟨last, _, _, _, _, hlast, _, hsame, hchoice | helement⟩ :=
        exists_of_interactionAction? hinteraction
      · cases hsame
        obtain ⟨choice, hchoice⟩ := hchoice
        exact absurd hchoice (hselect choice)
      · cases hsame
        exact ⟨last, hlast, helement⟩
  cases h with
  | receiver hlinks hselect =>
    obtain ⟨last, _, helement⟩ := hreceiver haction hselect
    subst hlinks
    exact eq_of_receiverElement?_name hname helement
  | @found front target method more args others element action kept hlinks htarget hselect =>
    obtain ⟨last, _, helement⟩ := hreceiver haction hselect
    have hfront : links.dropLast = front ++ [⟨"findElement", some (target :: more)⟩] := by
      rw [hlinks, List.append_cons, List.dropLast_concat]
    have hcall : Link.isCall ⟨"findElement", some (target :: more)⟩ "findElement" = true := rfl
    simp only [receiverElement?, hfront, List.getLast?_concat, hcall, if_true,
      elementOfLinks?_of_isPlainName hname htarget, Link.args, Option.getD_some, List.head?_cons,
      Option.bind_some] at helement
    exact eq_of_resolve?_eq_some hname htarget helement
  | @awaited call last condition target kind element hcall hcondition hlast hhead htarget =>
    obtain hwait | hinteraction := of_chainAction? haction rfl
    · obtain ⟨call', condition', last', target', _, _, hcall', hcondition', hlast', hhead',
        helement, hsame⟩ := exists_of_waitAction? hwait
      obtain rfl := Option.some.inj (hcall.symm.trans hcall')
      obtain rfl := Option.some.inj (hcondition.symm.trans hcondition')
      obtain rfl := Option.some.inj (hlast.symm.trans hlast')
      obtain rfl := Option.some.inj (hhead.symm.trans hhead')
      cases hsame
      exact eq_of_resolve?_eq_some hname htarget helement
    · obtain ⟨_, _, _, _, _, _, _, hother, _⟩ := exists_of_interactionAction? hinteraction
      cases hother

end Use

/-! ### Method bodies -/

theorem located_of_parseElement? {expr : String} {element : Element}
    (h : parseElement? expr = some element) : ∃ locator, element = .located locator := by
  have hfuel : (Chars.trim expr.toList).length < expr.length + 1 :=
    Nat.lt_succ_of_le ((length_trim_le _).trans (Nat.le_of_eq String.length_toList))
  obtain ⟨s, a, _, _, rfl⟩ := (elementWithin_iff hfuel element).mp h
  exact ⟨_, rfl⟩

/-- The latest element among the values of a variable is that of the last value exactly if the last
value is an element or none of them is. -/
theorem latest_element_iff (values : List String) {name : String} {element : Element}
    (h : element = (values.reverse.findSome? parseElement?).getD (.named name)) :
    (∀ locator, element = .located locator →
      ∃ value, values.getLast? = some value ∧ parseElement? value = some (.located locator)) ↔
    (∃ value, values.getLast? = some value ∧ (parseElement? value).isSome = true) ∨
      ∀ value ∈ values, parseElement? value = none := by
  constructor
  · intro hlast
    cases hfound : values.reverse.findSome? parseElement? with
    | none =>
      refine Or.inr fun value hvalue ↦ ?_
      exact List.findSome?_eq_none_iff.mp hfound value (List.mem_reverse.mpr hvalue)
    | some found =>
      obtain ⟨value, _, hparse⟩ := List.exists_of_findSome?_eq_some hfound
      obtain ⟨locator, rfl⟩ := located_of_parseElement? hparse
      rw [hfound, Option.getD_some] at h
      obtain ⟨last, hgetLast, hlocated⟩ := hlast locator h
      exact Or.inl ⟨last, hgetLast, by rw [hlocated]; rfl⟩
  · rintro (⟨value, hvalue, hparse⟩ | hnone) locator hlocator
    · obtain ⟨found, hfound⟩ := Option.isSome_iff_exists.mp hparse
      obtain ⟨front, rfl⟩ := List.getLast?_eq_some_iff.mp hvalue
      rw [List.reverse_concat, List.findSome?_cons, hfound] at h
      refine ⟨value, hvalue, ?_⟩
      rw [hfound, ← hlocator, h]
      rfl
    · have hfound : values.reverse.findSome? parseElement? = none :=
        List.findSome?_eq_none_iff.mpr fun value hvalue ↦ hnone value (List.mem_reverse.mp hvalue)
      rw [hlocator, hfound] at h
      cases h

/-- Variables in actions. An action on a variable has the locator of the latest assignment before
its statement whose value is an element, and refers to a declared element if there is none. So it
follows the last assignment exactly if the value of that is an element, or no value before is. -/
theorem element_of_latest_locator (body : String) (elements : Assoc Locator) {i : Nat}
    {statement : Statement} {actions : List Action} {action : Action} {links : List Link}
    {name : String} {element : Element} (hstatement : (statements body)[i]? = some statement)
    (hactions : (actionLists { elements } (statements body))[i]? = some actions)
    (haction : action ∈ actions) (hlinks : callChain? (expressionOf statement.text) = some links)
    (hname : isPlainName name = true) (huse : NamesElement name links action element) :
    extractActions body elements = (actionLists { elements } (statements body)).flatten ∧
    element = ((assignedValues name ((statements body).take i)).reverse.findSome?
      parseElement?).getD (.named name) ∧
    ((∀ locator, element = .located locator →
      ∃ value, (assignedValues name ((statements body).take i)).getLast? = some value ∧
        parseElement? value = some (.located locator)) ↔
      (∃ value, (assignedValues name ((statements body).take i)).getLast? = some value ∧
        (parseElement? value).isSome = true) ∨
      ∀ value ∈ assignedValues name ((statements body).take i), parseElement? value = none) := by
  have helement : element = ((assignedValues name ((statements body).take i)).reverse.findSome?
      parseElement?).getD (.named name) := by
    rw [getElem?_actionLists, hstatement, Option.map_some, Option.some_inj] at hactions
    subst hactions
    obtain ⟨links', bind, hlinks', hchain⟩ := exists_chain_of_mem huse.element?_eq haction
    obtain rfl := Option.some.inj (hlinks.symm.trans hlinks')
    have hlocal := huse.element_eq hname hchain
    have hempty : List.lookup name ({ elements } : Scope).locals = none := rfl
    rwa [lookup_scopeAfter, hempty, Option.or_none] at hlocal
  exact ⟨actionsFrom_eq_flatten _ _, helement, latest_element_iff _ helement⟩

theorem element_of_clicked_variable :
    (statements "field = driver.findElement(By.id(\"a\")); field.click();")[1]? =
      some ⟨40, "field.click()"⟩ ∧
    Element.located ⟨"id", "a"⟩ = ((assignedValues "field"
      ((statements "field = driver.findElement(By.id(\"a\")); field.click();").take
        1)).reverse.findSome? parseElement?).getD (.named "field") := by
  have hstatements : statements "field = driver.findElement(By.id(\"a\")); field.click();" =
      [⟨0, "field = driver.findElement(By.id(\"a\"))"⟩, ⟨40, "field.click()"⟩] := by
    rw [statements, String.toList_ofList]
    decide +kernel
  have hstatement : (statements "field = driver.findElement(By.id(\"a\")); field.click();")[1]? =
      some ⟨40, "field.click()"⟩ := by rw [hstatements]; rfl
  have hactions : (actionLists { elements := [] }
      (statements "field = driver.findElement(By.id(\"a\")); field.click();"))[1]? =
        some [.interaction (.located ⟨"id", "a"⟩) .click [] none] := by
    rw [hstatements]
    decide +kernel
  have hlinks : callChain? (expressionOf "field.click()") =
      some [⟨"field", none⟩, ⟨"click", some []⟩] := by decide +kernel
  exact ⟨hstatement, (element_of_latest_locator _ [] hstatement hactions
    (List.mem_singleton_self _) hlinks (by decide) (.receiver rfl nofun)).2.1⟩

/-- A variable keeps its locator when a page call is assigned to it. -/
theorem locator_kept_by_reassigned_variable :
    ∃ list, list = statements
        "field = driver.findElement(By.id(\"a\")); field = page.other(); field.click();" ∧
      (actionLists { elements := [] } list)[2]? =
        some [.interaction (.located ⟨"id", "a"⟩) .click [] none] ∧
      (list[2]?.map fun s ↦ callChain? (expressionOf s.text)) =
        some (some [⟨"field", none⟩, ⟨"click", some []⟩]) ∧
      NamesElement "field" [⟨"field", none⟩, ⟨"click", some []⟩]
        (.interaction (.located ⟨"id", "a"⟩) .click [] none) (.located ⟨"id", "a"⟩) ∧
      (assignedValues "field" (list.take 2)).getLast? = some "page.other()" ∧
      parseElement? "page.other()" = none := by
  have hstatements : statements
      "field = driver.findElement(By.id(\"a\")); field = page.other(); field.click();" =
        [⟨0, "field = driver.findElement(By.id(\"a\"))"⟩, ⟨40, "field = page.other()"⟩,
          ⟨62, "field.click()"⟩] := by
    rw [statements, String.toList_ofList]
    decide +kernel
  exact ⟨_, hstatements.symm, by decide +kernel, by decide +kernel, .receiver rfl nofun,
    by decide +kernel, by decide +kernel⟩

end SuiteMigration
