import SuiteMigration.Action.StepDefinition
import SuiteMigration.Proofs.Action.Coverage
import SuiteMigration.Proofs.Java.Region
import SuiteMigration.Proofs.Robot.Unbroken

/-!
The actions of a method body are plain. The name that a binding keeps a result in is an identifier,
and no statement returns text that starts like a variable: its opening brace would have ended the
statement, because a statement has a brace only after an opening parenthesis, the start of an
initializer or a quote.
-/

set_option autoImplicit false
set_option relaxedAutoImplicit false

namespace SuiteMigration.Chars

open SuiteMigration.Text

theorem exists_trim_eq (cs : List Char) :
    ∃ front back, (∀ c ∈ front, isBlank c = true) ∧ cs = front ++ trim cs ++ back := by
  refine ⟨cs.takeWhile isBlank, ((trimStart cs).reverse.takeWhile isBlank).reverse,
    fun _ ↦ List.mem_takeWhile_imp, ?_⟩
  rw [List.append_assoc, trim, trimEnd, dropEndWhile, ← List.reverse_append,
    List.takeWhile_append_dropWhile, List.reverse_reverse, trimStart,
    List.takeWhile_append_dropWhile]

end SuiteMigration.Chars

namespace SuiteMigration.Java

open SuiteMigration.Text

/-! ### Braces of a statement -/

/-- A character after which a statement may hold a brace. -/
def isBraceGuard (c : Char) : Bool :=
  c == '(' || c == '=' || c == ']' || c == '"' || c == '\x27'

/-- Whether a text can hold a brace that does not end its statement. -/
def HasGuard (cs : List Char) : Prop :=
  ∃ c ∈ cs, isBraceGuard c = true

theorem HasGuard.cons {cs : List Char} (h : HasGuard cs) (c : Char) : HasGuard (c :: cs) := by
  obtain ⟨guard, hguard, his⟩ := h
  exact ⟨guard, List.mem_cons_of_mem _ hguard, his⟩

/-- Every opening brace of the statement being read comes after a guard, and so does what is inside
brackets or inside a literal. The text has its last character first. -/
structure Pending.Guarded (p : Pending) (region : Region) : Prop where
  brace : ∀ before, '\x7b' :: before <:+ p.text → HasGuard before
  parens : 0 < p.parens → HasGuard p.text
  braces : 0 < p.braces → HasGuard p.text
  literal : region ∈ [.string, .character, .textBlock] → HasGuard p.text

theorem Pending.Guarded.empty : ({} : Pending).Guarded .code where
  brace _ h := nomatch List.suffix_nil.mp h
  parens h := nomatch h
  braces h := nomatch h
  literal h := nomatch h

theorem Pending.Guarded.leave {p : Pending} {region other : Region} (h : p.Guarded region)
    (hother : other ∉ [.string, .character, .textBlock]) : p.Guarded other where
  brace := h.brace
  parens := h.parens
  braces := h.braces
  literal hliteral := absurd hliteral hother

/-- A character is read. Where it can be a brace there is a guard before it, and where there are
brackets afterwards there is a guard up to it. -/
theorem Pending.Guarded.read {p q : Pending} {region other : Region} (h : p.Guarded region)
    {c : Char} (htext : q.text = c :: p.text) (hbrace : c = '\x7b' → HasGuard p.text)
    (hparens : 0 < q.parens → HasGuard (c :: p.text))
    (hbraces : 0 < q.braces → HasGuard (c :: p.text))
    (hliteral : other ∈ [.string, .character, .textBlock] → HasGuard (c :: p.text)) :
    q.Guarded other where
  brace before hbefore := by
    rw [htext, List.suffix_cons_iff] at hbefore
    obtain heq | hbefore := hbefore
    · obtain ⟨hc, rfl⟩ := List.cons.inj heq
      exact hbrace hc.symm
    · exact h.brace before hbefore
  parens hpos := htext ▸ hparens hpos
  braces hpos := htext ▸ hbraces hpos
  literal hmem := htext ▸ hliteral hmem

/-- A character of a literal is a quote, or comes after one. -/
theorem Pending.Guarded.readLiteral {p : Pending} {region : Region} (h : p.Guarded region)
    (offset : Nat) {c : Char} (hc : isBraceGuard c = true ∨ HasGuard p.text) (other : Region) :
    ((p.begin offset).push c).Guarded other := by
  have hguard : HasGuard (c :: p.text) := by
    obtain hc | hp := hc
    · exact ⟨c, List.mem_cons_self, hc⟩
    · exact hp.cons c
  refine h.read rfl (fun heq ↦ ?_) (fun _ ↦ hguard) (fun _ ↦ hguard) (fun _ ↦ hguard)
  obtain hc | hp := hc
  · rw [heq] at hc
    cases hc
  · exact hp

theorem Pending.Guarded.readInside {p : Pending} {region : Region} (h : p.Guarded region)
    (offset : Nat) {c : Char} (hregion : region ∈ [.string, .character, .textBlock])
    (other : Region) : ((p.begin offset).push c).Guarded other :=
  h.readLiteral offset (.inr (h.literal hregion)) other

/-- The white space that a comment leaves behind is read. -/
theorem Pending.Guarded.readBlank {p : Pending} {region : Region} (h : p.Guarded region) :
    (p.push ' ').Guarded .code :=
  h.read rfl nofun (fun hpos ↦ (h.parens hpos).cons _) (fun hpos ↦ (h.braces hpos).cons _) nofun

theorem Pending.hasGuard_of_opensInitializer {p : Pending} (h : p.opensInitializer = true) :
    HasGuard p.text := by
  have hmem {c : Char} {rest : List Char} (heq : p.text.dropWhile isBlank = c :: rest) :
      c ∈ p.text :=
    (List.dropWhile_sublist isBlank).subset (heq ▸ List.mem_cons_self)
  unfold Pending.opensInitializer at h
  split at h
  next heq => exact ⟨'=', hmem heq, rfl⟩
  next heq => exact ⟨']', hmem heq, rfl⟩
  next => cases h

/-- A character of code that does not end the statement is read. -/
theorem Pending.Guarded.readCode {p : Pending} (h : p.Guarded .code) (offset : Nat) {c : Char}
    (hends : p.endsAt c = false) :
    ((if isAsciiBlank c then p.nest c else (p.nest c).begin offset).push c).Guarded .code := by
  have hbrace : c = '\x7b' → HasGuard p.text := by
    rintro rfl
    by_cases hinit : p.opensInitializer = true
    · exact hasGuard_of_opensInitializer hinit
    by_cases hparens : 0 < p.parens
    · exact h.parens hparens
    by_cases hbraces : 0 < p.braces
    · exact h.braces hbraces
    · rw [endsAt, Bool.eq_false_iff.mpr hinit, Nat.eq_zero_of_not_pos hparens,
        Nat.eq_zero_of_not_pos hbraces] at hends
      cases hends
  have hnest : (0 < (p.nest c).parens → HasGuard (c :: p.text)) ∧
      (0 < (p.nest c).braces → HasGuard (c :: p.text)) ∧ (p.nest c).text = p.text := by
    have hparens (hpos : 0 < p.parens) : HasGuard (c :: p.text) := (h.parens hpos).cons c
    have hbraces (hpos : 0 < p.braces) : HasGuard (c :: p.text) := (h.braces hpos).cons c
    unfold Pending.nest
    split_ifs with hopen hclose hinner hend hinit
    · exact ⟨fun _ ↦ ⟨c, List.mem_cons_self, by rw [eq_of_beq hopen]; rfl⟩, hbraces, rfl⟩
    · exact ⟨fun hpos ↦ hparens (Nat.lt_of_lt_of_le hpos (Nat.sub_le _ _)), hbraces, rfl⟩
    · refine ⟨hparens, fun _ ↦ hbraces ?_, rfl⟩
      simpa using (Bool.and_eq_true_iff.mp hinner).2
    · exact ⟨hparens, fun hpos ↦ hbraces (Nat.lt_of_lt_of_le hpos (Nat.sub_le _ _)), rfl⟩
    · refine ⟨hparens, fun _ ↦ (hasGuard_of_opensInitializer ?_).cons c, rfl⟩
      exact (Bool.and_eq_true_iff.mp hinit).2
    · exact ⟨hparens, hbraces, rfl⟩
  obtain ⟨hparens, hbraces, htext⟩ := hnest
  split
  · exact h.read (by rw [Pending.push, htext]) hbrace hparens hbraces nofun
  · exact h.read (by rw [Pending.push, Pending.begin, htext]) hbrace hparens hbraces nofun

/-- A statement does not return text that starts like a variable. -/
def ReturnsNoVariable (statement : String) : Prop :=
  ∀ expr, afterStart? "return " statement = some expr → startsWith (trim expr) "$\x7b" = false

/-- What stands before a variable that a statement returns is white space, `return` and the sign of
the variable. -/
theorem exists_before_variable {cs : List Char} {expr : String}
    (hreturn : afterStart? "return " (String.ofList (Chars.trim cs)) = some expr)
    (hvariable : startsWith (trim expr) "$\x7b" = true) :
    ∃ before after, cs = before ++ '\x7b' :: after ∧
      ∀ c ∈ before, isBlank c = true ∨ c ∈ "return$".toList := by
  have hchars (ds : List Char) : (String.ofList ds).toList = ds := String.toList_ofList
  rw [Text.afterStart?] at hreturn
  obtain ⟨rest, hrest, rfl⟩ := Option.map_eq_some_iff.mp hreturn
  rw [hchars (Chars.trim cs)] at hrest
  rw [Text.startsWith, Chars.startsWith] at hvariable
  obtain ⟨more, hmore⟩ := Option.isSome_iff_exists.mp hvariable
  rw [trim, hchars (Chars.trim _), hchars rest] at hmore
  obtain ⟨front, back, hfront, hcs⟩ := Chars.exists_trim_eq cs
  obtain ⟨middle, last, hmiddle, hexpr⟩ := Chars.exists_trim_eq rest
  rw [Chars.eq_append_of_afterStart? hmore] at hexpr
  rw [Chars.eq_append_of_afterStart? hrest, hexpr] at hcs
  refine ⟨front ++ "return ".toList ++ middle ++ ['$'], more ++ last ++ back, ?_, ?_⟩
  · rw [hcs]
    simp
  · simp only [List.mem_append, List.mem_singleton]
    rintro c (((hc | hc) | hc) | rfl)
    · exact Or.inl (hfront c hc)
    · have hword : "return ".toList.all
          (fun d ↦ decide (isBlank d = true ∨ d ∈ "return$".toList)) = true := by decide
      exact of_decide_eq_true (List.all_eq_true.mp hword c hc)
    · exact Or.inl (hmiddle c hc)
    · exact Or.inr (by decide)

theorem Pending.Guarded.returnsNoVariable {p : Pending} {region : Region} (h : p.Guarded region) :
    ∀ s ∈ p.statement?, ReturnsNoVariable s.text := by
  intro s hs expr hexpr
  refine Bool.eq_false_iff.mpr fun hvariable ↦ ?_
  have htext : s.text = String.ofList (Chars.trim p.text.reverse) := by
    unfold Pending.statement? at hs
    dsimp only at hs
    split at hs
    · cases hs
    · rw [← Option.some.inj hs]
  rw [htext] at hexpr
  obtain ⟨front, back, htext, hfront⟩ := exists_before_variable hexpr hvariable
  have hsuffix : '\x7b' :: front.reverse <:+ p.text := by
    refine ⟨back.reverse, ?_⟩
    rw [← List.reverse_reverse p.text, htext, List.reverse_append, List.reverse_cons,
      List.append_assoc, List.singleton_append]
  obtain ⟨c, hc, hguard⟩ := h.brace _ hsuffix
  simp only [isBraceGuard, Bool.or_eq_true, beq_iff_eq] at hguard
  have hc := hfront c (List.mem_reverse.mp hc)
  revert hc
  obtain (((rfl | rfl) | rfl) | rfl) | rfl := hguard <;> decide

theorem returnsNoVariable_statementsFrom {region : Region} {p : Pending} (h : p.Guarded region)
    (offset : Nat) (cs : List Char) :
    ∀ s ∈ statementsFrom offset p (marksFrom false region cs), ReturnsNoVariable s.text := by
  fun_induction marksFrom false region cs generalizing p offset with
  | case1 region => exact fun s hs ↦ h.returnsNoVariable s (Option.mem_toList.mp hs)
  | case2 rest ih => exact ih (h.leave (by decide)) _
  | case3 rest ih => exact ih (h.leave (by decide)) _
  | case4 rest ih =>
    have hquote : ((p.begin offset).push '"').Guarded .string :=
      h.readLiteral offset (.inl rfl) .string
    exact ih ((hquote.readInside _ (by decide) .string).readInside _ (by decide) .textBlock) _
  | case5 c rest _ _ _ hquote ih =>
    exact ih (h.readLiteral offset (.inl (by rw [eq_of_beq hquote]; rfl)) .string) _
  | case6 c rest _ _ _ _ hquote ih =>
    exact ih (h.readLiteral offset (.inl (by rw [eq_of_beq hquote]; rfl)) .character) _
  | case7 c rest _ _ _ _ _ ih =>
    intro s hs
    rw [statementsFrom] at hs
    dsimp only at hs
    split at hs
    next =>
      obtain hs | hs := List.mem_append.mp hs
      · exact h.returnsNoVariable s (Option.mem_toList.mp hs)
      · exact ih .empty _ s hs
    next hends => exact ih (h.readCode offset (Bool.eq_false_iff.mpr hends)) _ s hs
  | case8 c rest ih =>
    exact ih ((h.readInside offset (by decide) .string).readInside _ (by decide) .string) _
  | case9 c rest _ ih => exact ih (h.readInside offset (by decide) _) _
  | case10 c rest ih =>
    exact ih ((h.readInside offset (by decide) .character).readInside _ (by decide) .character) _
  | case11 c rest _ ih => exact ih (h.readInside offset (by decide) _) _
  | case12 rest ih =>
    exact ih (((h.readInside offset (by decide) .string).readInside _ (by decide)
      .string).readInside _ (by decide) .code) _
  | case13 c rest hescapes => cases hescapes
  | case14 c rest _ ih => exact ih (h.readInside offset (by decide) .textBlock) _
  | case15 c rest _ _ ih => exact ih (h.readInside offset (by decide) .textBlock) _
  | case16 c rest _ ih => exact ih h.readBlank _
  | case17 c rest _ ih => exact ih h _
  | case18 rest ih => exact ih h.readBlank _
  | case19 c rest _ ih => exact ih h _

end SuiteMigration.Java

namespace SuiteMigration

open SuiteMigration.Text SuiteMigration.Java SuiteMigration.Chars

/-! ### Names of bindings -/

theorem unbroken_of_identifier? {cs name rest : List Char}
    (h : identifier? cs = some (name, rest)) : Unbroken name := by
  unfold identifier? at h
  split at h
  next c more =>
    split at h
    next hstart =>
      rw [← (Prod.mk.inj (Option.some.inj h)).1, unbroken_cons]
      refine ⟨?_, unbroken_of_forall (by decide) fun _ ↦ List.mem_takeWhile_imp⟩
      rintro rfl
      cases hstart
    next => cases h
  next => cases h

theorem unbroken_of_assignment? {cs : List Char} {b : Binding} (h : assignment? cs = some b) :
    Unbroken b.name.toList := by
  obtain ⟨⟨name, rest⟩, hname, h⟩ := Option.bind_eq_some_iff.mp h
  dsimp only at h
  split at h
  · split at h
    · cases h
    · rw [← Option.some.inj h, String.toList_ofList]
      exact unbroken_of_identifier? hname
  · cases h

theorem unbroken_of_afterType? {cs : List Char} {b : Binding} (h : afterType? cs = some b) :
    Unbroken b.name.toList := by
  obtain ⟨rest, _, h⟩ := Option.bind_eq_some_iff.mp h
  exact unbroken_of_assignment? h

theorem unbroken_of_afterTypeArguments? {cs : List Char} {b : Binding}
    (h : afterTypeArguments? cs = some b) : Unbroken b.name.toList := by
  induction cs with
  | nil => cases h
  | cons c rest ih =>
    rw [afterTypeArguments?] at h
    split at h
    · split at h
      next binding hbinding =>
        rw [← Option.some.inj h]
        exact unbroken_of_afterType? hbinding
      next => exact ih h
    · exact ih h

theorem unbroken_of_unmodifiedBinding? {cs : List Char} {b : Binding}
    (h : unmodifiedBinding? cs = some b) : Unbroken b.name.toList := by
  have htyped {binding : Binding} (hbinding : typedBinding? cs = some binding) :
      Unbroken binding.name.toList := by
    unfold typedBinding? at hbinding
    split at hbinding
    · split at hbinding
      · split at hbinding
        · exact unbroken_of_afterTypeArguments? hbinding
        · exact unbroken_of_afterType? hbinding
      · cases hbinding
    · cases hbinding
  unfold unmodifiedBinding? at h
  split at h
  next binding hbinding => exact Option.some.inj h ▸ htyped hbinding
  next => exact unbroken_of_assignment? h

/-- The name that a binding gives is an identifier, so it has no line feed. -/
theorem unbroken_of_binding? {statement : String} {b : Binding} (h : binding? statement = some b) :
    Unbroken b.name.toList := by
  have hkept {found : Option Binding} (hfound : ∀ kept ∈ found, Unbroken kept.name.toList)
      (hb : (found.bind fun kept ↦ if startsWith kept.value "=" then none else some kept) =
        some b) : Unbroken b.name.toList := by
    obtain ⟨kept, hmem, hb⟩ := Option.bind_eq_some_iff.mp hb
    split at hb
    · cases hb
    · exact Option.some.inj hb ▸ hfound kept hmem
  unfold binding? at h
  dsimp only at h
  split at h
  next kept hmodified =>
    obtain ⟨rest, _, hmodified⟩ := Option.bind_eq_some_iff.mp hmodified
    obtain ⟨more, _, hmodified⟩ := Option.bind_eq_some_iff.mp hmodified
    refine hkept (fun other hother ↦ ?_) h
    rw [← Option.some.inj hother]
    exact unbroken_of_unmodifiedBinding? hmodified
  next => exact hkept (fun _ hkept ↦ unbroken_of_unmodifiedBinding? hkept) h

/-! ### Actions of chains -/

theorem plain_of_navigatorAction? {links : List Link} {action : Action}
    (h : navigatorAction? links = some (some action)) : action.Plain := by
  obtain ⟨position, _, h⟩ := Option.bind_eq_some_iff.mp h
  obtain ⟨next, _, h⟩ := Option.bind_eq_some_iff.mp (Option.some.inj h)
  split at h
  · obtain ⟨url, _, rfl⟩ := Option.map_eq_some_iff.mp h
    trivial
  · exact Option.some.inj h ▸ nofun
  · exact Option.some.inj h ▸ nofun
  · cases h

theorem plain_of_navigationAction? {links : List Link} {bind : Option String} {action : Action}
    (hbind : ∀ name ∈ bind, Unbroken name.toList)
    (h : navigationAction? links bind = some action) : action.Plain := by
  unfold navigationAction? at h
  split at h
  next result hresult => exact plain_of_navigatorAction? (h ▸ hresult)
  next =>
    split at h
    next call =>
      split at h
      · split at h
        · exact Option.some.inj h ▸ trivial
        · cases h
      · cases h
    next driver call =>
      split at h
      · split at h
        · obtain ⟨c, _, rfl⟩ := Option.map_eq_some_iff.mp h
          exact hbind
        · split at h
          · exact Option.some.inj h ▸ trivial
          · cases h
        · cases h
      · cases h
    next driver manage window maximize =>
      split at h
      · exact Option.some.inj h ▸ nofun
      · cases h
    next => cases h

theorem plain_of_interactionAction? {links : List Link} {bind : Option String} {scope : Scope}
    {action : Action} (hbind : ∀ name ∈ bind, Unbroken name.toList)
    (h : interactionAction? links bind scope = some action) : action.Plain := by
  obtain ⟨last, _, h⟩ := Option.bind_eq_some_iff.mp h
  obtain ⟨args, _, h⟩ := Option.bind_eq_some_iff.mp h
  dsimp only at h
  split at h
  · obtain ⟨element, _, h⟩ := Option.bind_eq_some_iff.mp h
    exact Option.some.inj h ▸ nofun
  · obtain ⟨element, _, h⟩ := Option.bind_eq_some_iff.mp h
    rw [← Option.some.inj h]
    exact fun name hname ↦ hbind name (Option.eq_some_of_filter_eq_some hname)

theorem plain_of_matcherAssertion? {actual matcher : String} {action : Action}
    (h : matcherAssertion? actual matcher = some action) : action.Plain := by
  obtain ⟨links, _, h⟩ := Option.bind_eq_some_iff.mp h
  split at h
  next outer =>
    obtain ⟨expected, _, h⟩ := Option.bind_eq_some_iff.mp h
    split at h
    case h_1 | h_2 =>
      split at h
      · split at h
        · obtain ⟨value, _, h⟩ := Option.bind_eq_some_iff.mp h
          exact Option.some.inj h ▸ trivial
        · exact Option.some.inj h ▸ trivial
      · exact Option.some.inj h ▸ trivial
    case h_3 => exact Option.some.inj h ▸ trivial
    case h_4 => cases h
  next => cases h

theorem plain_of_assertionAction? {links : List Link} {action : Action}
    (h : assertionAction? links = some action) : action.Plain := by
  obtain ⟨last, _, h⟩ := Option.bind_eq_some_iff.mp h
  split at h
  · exact Option.some.inj h ▸ trivial
  · obtain ⟨position, _, h⟩ := Option.bind_eq_some_iff.mp h
    obtain ⟨subject, _, h⟩ := Option.bind_eq_some_iff.mp h
    dsimp only at h
    split at h
    · obtain ⟨kind, _, h⟩ := Option.bind_eq_some_iff.mp h
      obtain ⟨value, _, h⟩ := Option.bind_eq_some_iff.mp h
      exact Option.some.inj h ▸ trivial
    · split at h
      · exact plain_of_matcherAssertion? h
      · exact plain_of_matcherAssertion? h
      · cases h

theorem plain_of_chainAction? {links : List Link} {bind : Option String} {scope : Scope}
    {action : Action} (hbind : ∀ name ∈ bind, Unbroken name.toList)
    (h : chainAction? links bind scope = some action) : action.Plain := by
  unfold chainAction? at h
  simp only [Option.orElse_eq_orElse, Option.orElse_eq_or, Option.or_eq_some_iff] at h
  obtain h | ⟨_, h | ⟨_, h | ⟨_, h | ⟨_, h | ⟨_, h⟩⟩⟩⟩⟩ := h
  · unfold sleepAction? at h
    split at h
    · split at h
      · obtain ⟨millis, _, rfl⟩ := Option.map_eq_some_iff.mp h
        trivial
      · cases h
    · cases h
  · exact plain_of_navigationAction? hbind h
  · obtain ⟨call, _, h⟩ := Option.bind_eq_some_iff.mp h
    obtain ⟨arg, _, h⟩ := Option.bind_eq_some_iff.mp h
    obtain ⟨condition, _, h⟩ := Option.bind_eq_some_iff.mp h
    obtain ⟨last, _, h⟩ := Option.bind_eq_some_iff.mp h
    obtain ⟨kind, _, h⟩ := Option.bind_eq_some_iff.mp h
    obtain ⟨target, _, h⟩ := Option.bind_eq_some_iff.mp h
    obtain ⟨element, _, h⟩ := Option.bind_eq_some_iff.mp h
    exact Option.some.inj h ▸ trivial
  · exact plain_of_assertionAction? h
  · exact plain_of_interactionAction? hbind h
  · obtain ⟨last, _, h⟩ := Option.bind_eq_some_iff.mp h
    obtain ⟨message, _, h⟩ := Option.bind_eq_some_iff.mp h
    split at h
    · exact Option.some.inj h ▸ trivial
    · cases h

theorem plain_pageCallActions {object : String} {bind : Option String}
    (hbind : ∀ name ∈ bind, Unbroken name.toList) (calls : List Link) :
    ∀ action ∈ pageCallActions object bind calls, action.Plain := by
  fun_induction pageCallActions object bind calls with
  | case1 => exact List.forall_mem_nil _
  | case2 call => exact List.forall_mem_singleton.mpr hbind
  | case3 call rest _ ih => exact List.forall_mem_cons.mpr ⟨nofun, ih⟩

theorem plain_expressionActions (expr : String) {bind : Option String} (scope : Scope)
    (hbind : ∀ name ∈ bind, Unbroken name.toList) :
    ∀ action ∈ expressionActions expr bind scope, action.Plain := by
  have hunmapped : ∀ action ∈ [Action.unmapped expr], action.Plain :=
    List.forall_mem_singleton.mpr trivial
  unfold expressionActions
  split
  next => exact hunmapped
  next links _ =>
    split
    next action haction =>
      exact List.forall_mem_singleton.mpr (plain_of_chainAction? hbind haction)
    next =>
      cases hpage : pageActions? links bind with
      | none => exact hunmapped
      | some actions =>
        obtain ⟨⟨object, calls⟩, _, hpage⟩ := Option.bind_eq_some_iff.mp hpage
        dsimp only at hpage
        split at hpage
        · cases hpage
        · split at hpage
          · cases hpage
          · rw [Option.getD_some, ← Option.some.inj hpage]
            exact plain_pageCallActions hbind calls

/-! ### Actions of statements -/

theorem plain_returnActions {expr : String} (h : startsWith expr "$\x7b" = false) (scope : Scope) :
    ∀ action ∈ returnActions expr scope, action.Plain := by
  have hresult : ∀ name ∈ some "result", Unbroken name.toList := by
    intro name hname
    rw [← Option.some.inj hname]
    decide
  have hactions := plain_expressionActions expr scope hresult
  unfold returnActions
  split
  · dsimp only
    split
    · refine List.forall_mem_append.mpr ⟨hactions, List.forall_mem_singleton.mpr fun _ ↦ ?_⟩
      decide
    · exact hactions
  · refine List.forall_mem_singleton.mpr fun hvariable ↦ ?_
    rw [h] at hvariable
    cases hvariable

theorem plain_bindingActions (statement : String) {b : Binding} (h : Unbroken b.name.toList)
    (scope : Scope) : ∀ action ∈ (bindingActions statement b scope).1, action.Plain := by
  have hassign : ∀ action ∈ [Action.assign b.name b.value], action.Plain :=
    List.forall_mem_singleton.mpr h
  have hname : ∀ name ∈ some b.name, Unbroken name.toList := by
    intro name hname
    rwa [← Option.some.inj hname]
  unfold bindingActions
  split
  · exact List.forall_mem_nil _
  · split
    · exact hassign
    · split
      · exact List.forall_mem_nil _
      · split
        · exact List.forall_mem_nil _
        · split
          · exact hassign
          · dsimp only
            split
            · exact List.forall_mem_singleton.mpr trivial
            · dsimp only
              exact plain_expressionActions _ scope hname

theorem plain_statementActions {statement : String} (h : ReturnsNoVariable statement)
    (scope : Scope) : ∀ action ∈ (statementActions statement scope).1, action.Plain := by
  unfold statementActions
  split
  · exact List.forall_mem_nil _
  · split
    next expr hexpr =>
      have hvalue := h expr hexpr
      dsimp only
      exact plain_returnActions hvalue scope
    next =>
      split
      next b hbinding => exact plain_bindingActions statement (unbroken_of_binding? hbinding) scope
      next =>
        dsimp only
        exact plain_expressionActions statement scope nofun

theorem plain_actionsFrom {list : List Statement} (h : ∀ s ∈ list, ReturnsNoVariable s.text)
    (scope : Scope) : ∀ action ∈ actionsFrom scope list, action.Plain := by
  induction list generalizing scope with
  | nil => exact List.forall_mem_nil _
  | cons s rest ih =>
    obtain ⟨hfirst, hrest⟩ := List.forall_mem_cons.mp h
    exact List.forall_mem_append.mpr ⟨plain_statementActions hfirst scope, ih hrest _⟩

/-- Every action of a method body is plain, so its rows stay on one line. -/
theorem plain_extractActions (body : String) (elements : Assoc Locator) :
    ∀ action ∈ extractActions body elements, action.Plain :=
  plain_actionsFrom (returnsNoVariable_statementsFrom .empty 0 body.toList) { elements }

end SuiteMigration
