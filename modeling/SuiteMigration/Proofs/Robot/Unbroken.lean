import SuiteMigration.Proofs.Robot.Argument
import SuiteMigration.Proofs.Robot.Rewriting
import SuiteMigration.Resource.Heuristic
import SuiteMigration.Robot.ActionRow

/-!
Rows that stay on one line. Texts of the source reach a row as cells, in which line feeds are
escaped, or as comments, whose white space is collapsed; what is copied unescaped is a number or a
name. So every row of an action is free of line feeds, unless the action keeps its result in a name
or returns a variable that has one.
-/

set_option autoImplicit false
set_option relaxedAutoImplicit false

namespace SuiteMigration.Chars

open SuiteMigration.Text

/-- A text without line feeds. -/
def Unbroken (cs : List Char) : Prop :=
  '\n' ∉ cs

instance (cs : List Char) : Decidable (Unbroken cs) :=
  inferInstanceAs (Decidable (¬ _))

@[simp] theorem unbroken_nil : Unbroken [] :=
  nofun

@[simp] theorem unbroken_cons {c : Char} {cs : List Char} :
    Unbroken (c :: cs) ↔ c ≠ '\n' ∧ Unbroken cs := by
  simp only [Unbroken, List.mem_cons, not_or, ne_eq, eq_comm (a := c)]

@[simp] theorem unbroken_append {cs ds : List Char} :
    Unbroken (cs ++ ds) ↔ Unbroken cs ∧ Unbroken ds := by
  simp [Unbroken, not_or]

theorem Unbroken.append {s t : String} (hs : Unbroken s.toList) (ht : Unbroken t.toList) :
    Unbroken (s ++ t).toList := by
  rw [String.toList_append, unbroken_append]
  exact ⟨hs, ht⟩

theorem Unbroken.of_subset {cs ds : List Char} (hds : Unbroken ds) (h : cs ⊆ ds) : Unbroken cs :=
  fun hfeed ↦ hds (h hfeed)

theorem OneLine.unbroken {cs : List Char} (h : OneLine cs) : Unbroken cs :=
  h.isLine.1

/-- Characters of a class without the line feed. -/
theorem unbroken_of_forall {p : Char → Bool} (hp : p '\n' = false) {cs : List Char}
    (h : ∀ c ∈ cs, p c = true) : Unbroken cs := by
  intro hfeed
  rw [h _ hfeed] at hp
  cases hp

theorem unbroken_join {separator : List Char} {parts : List (List Char)}
    (hseparator : Unbroken separator) (h : ∀ part ∈ parts, Unbroken part) :
    Unbroken (join separator parts) := by
  intro hfeed
  obtain hfeed | ⟨part, hpart, hfeed⟩ := mem_join hfeed
  · exact hseparator hfeed
  · exact h part hpart hfeed

theorem unbroken_of_mem_words {cs word : List Char} (h : word ∈ words cs) : Unbroken word := by
  intro hfeed
  cases (mem_of_mem_words h hfeed).2

theorem unbroken_collapse (cs : List Char) : Unbroken (collapse cs) :=
  unbroken_join (by decide) fun _ ↦ unbroken_of_mem_words

end SuiteMigration.Chars

namespace SuiteMigration.Keyword

open SuiteMigration.Text SuiteMigration.Chars

theorem unbroken_titleCase (text : String) : Unbroken (titleCase text).toList := by
  rw [titleCase, String.toList_ofList]
  exact (oneLine_titleChars _).unbroken

theorem unbroken_ofIdentifier (name : String) : Unbroken (ofIdentifier name).toList :=
  unbroken_titleCase _

/-- The words of an identifier hold its characters, but none that separates words. -/
theorem mem_of_mem_identifierWordsFrom {current cs word : List Char} {before c : Char}
    {p : Char → Prop} (hcurrent : ∀ d ∈ current, p d)
    (hcs : ∀ d ∈ cs, separatesWords d = false → p d)
    (h : word ∈ identifierWordsFrom current before cs) (hc : c ∈ word) : p c := by
  fun_induction identifierWordsFrom current before cs with
  | case1 => cases h
  | case2 current before hne =>
    rw [List.mem_singleton.mp h] at hc
    exact hcurrent c (List.mem_reverse.mp hc)
  | case3 current before d rest hd hempty ih =>
    exact ih (List.forall_mem_nil _) (List.forall_mem_cons.mp hcs).2 h
  | case4 current before d rest hd hempty ih =>
    obtain rfl | h := List.mem_cons.mp h
    · exact hcurrent c (List.mem_reverse.mp hc)
    · exact ih (List.forall_mem_nil _) (List.forall_mem_cons.mp hcs).2 h
  | case5 current before d rest hd hstarts ih =>
    obtain ⟨hfirst, hrest⟩ := List.forall_mem_cons.mp hcs
    obtain rfl | h := List.mem_cons.mp h
    · exact hcurrent c (List.mem_reverse.mp hc)
    · exact ih (List.forall_mem_singleton.mpr (hfirst (Bool.eq_false_iff.mpr hd))) hrest h
  | case6 current before d rest hd hstarts ih =>
    obtain ⟨hfirst, hrest⟩ := List.forall_mem_cons.mp hcs
    exact ih (List.forall_mem_cons.mpr ⟨hfirst (Bool.eq_false_iff.mpr hd), hcurrent⟩) hrest h

theorem separatesWords_of_mem_identifierWords {name word : String}
    (h : word ∈ identifierWords name) : ∀ c ∈ word.toList, separatesWords c = false := by
  obtain ⟨cs, hcs, rfl⟩ := List.mem_map.mp h
  rw [String.toList_ofList]
  exact fun c hc ↦ mem_of_mem_identifierWordsFrom (List.forall_mem_nil _) (fun _ _ hd ↦ hd) hcs hc

theorem unbroken_toUpper {text : String} (h : Unbroken text.toList) :
    Unbroken (toUpper text).toList := by
  rw [toUpper, String.toList_ofList]
  intro hfeed
  obtain ⟨c, hc, hfeed⟩ := List.mem_flatMap.mp hfeed
  rw [eq_of_mem_upperChar (by decide) (by decide) hfeed] at hc
  exact h hc

theorem unbroken_constant (name : String) : Unbroken (constant name).toList := by
  rw [constant, String.toList_intercalate]
  refine unbroken_join (by decide) fun part hpart ↦ ?_
  obtain ⟨upper, hupper, rfl⟩ := List.mem_map.mp hpart
  obtain ⟨word, hword, rfl⟩ := List.mem_map.mp hupper
  refine unbroken_toUpper fun hfeed ↦ ?_
  cases separatesWords_of_mem_identifierWords hword _ hfeed

@[simp] theorem unbroken_scalar {name : String} :
    Unbroken (scalar name).toList ↔ Unbroken name.toList := by
  have hopen : Unbroken "$\x7b".toList := by decide
  have hclose : Unbroken "\x7d".toList := by decide
  rw [scalar, String.toList_append, String.toList_append, unbroken_append, unbroken_append]
  exact ⟨fun h ↦ h.1.2, fun h ↦ ⟨⟨hopen, h⟩, hclose⟩⟩

end SuiteMigration.Keyword

namespace SuiteMigration.Robot

open SuiteMigration.Text SuiteMigration.Chars SuiteMigration.Java SuiteMigration.Keyword

/-! ### Cells -/

theorem unbroken_escapeChars (cs : List Char) : Unbroken (escapeChars cs) := by
  have hchar (isFirst : Bool) (c : Char) (rest : List Char) :
      Unbroken (escapeChar isFirst c rest) := by
    have hself (hfeed : ¬ (c == '\n') = true) : '\n' ≠ c := fun heq ↦ hfeed (heq ▸ rfl)
    unfold escapeChar
    split_ifs with _ hfeed
    · decide
    · decide
    · decide
    · decide
    · simpa [Unbroken] using hself hfeed
    · decide
    · simpa [Unbroken] using hself hfeed
  have hfrom (isFirst : Bool) (cs : List Char) : Unbroken (escapeFrom isFirst cs) := by
    induction cs generalizing isFirst with
    | nil => exact nofun
    | cons c rest ih => exact unbroken_append.mpr ⟨hchar isFirst c rest, ih false⟩
  unfold escapeChars
  split
  · decide
  · exact hfrom true cs

theorem unbroken_escapeCell (text : String) : Unbroken (escapeCell text).toList := by
  rw [escapeCell, String.toList_ofList]
  exact unbroken_escapeChars _

theorem unbroken_row {cells : List String} (h : ∀ cell ∈ cells, Unbroken cell.toList) :
    Unbroken (row cells).toList := by
  rw [row, String.toList_intercalate]
  exact unbroken_join (by decide) (List.forall_mem_map.mpr h)

theorem unbroken_todo (text : String) : Unbroken (todo text).toList := by
  have hstart : Unbroken "# TODO: ".toList := by decide
  have hcut (cs : List Char) (n : Nat) : Unbroken ((Chars.collapse cs).take n) :=
    (unbroken_collapse cs).of_subset (List.take_subset _ _)
  refine hstart.append ?_
  rw [takeChars, Text.collapse, String.toList_ofList, String.toList_ofList]
  exact hcut _ _

/-! ### Converted arguments -/

theorem unbroken_of_isNumber {cs : List Char} (h : isNumber cs = true) : Unbroken cs :=
  unbroken_of_forall (by decide) (isNumberChar_of_isNumber h)

theorem unbroken_of_isName {cs : List Char} (h : isName cs = true) : Unbroken cs :=
  unbroken_of_forall (by decide) (isNameChar_of_isName h)

theorem unbroken_of_qualifiedName? {cs : List Char} {reference : String}
    (h : qualifiedName? cs = some reference) : Unbroken reference.toList := by
  unfold qualifiedName? at h
  dsimp only at h
  split at h
  next first second others hparts =>
    split at h
    next hnames =>
      have hname := List.all_eq_true.mp hnames
      rw [← Option.some.inj h, unbroken_scalar, String.toList_ofList]
      split
      next =>
        refine unbroken_of_isName (hname _ ?_)
        rw [hparts, List.getLastD_eq_getLast?]
        exact List.mem_of_getLast? rfl
      next =>
        intro hfeed
        obtain ⟨part, hpart, hfeed⟩ := mem_splitBy hfeed (p := (· == '.')) (by decide)
        exact unbroken_of_isName (hname part hpart) hfeed
    next => cases h
  next => cases h

theorem unbroken_convertOperand (cs : List Char) : Unbroken (convertOperand cs).text.toList := by
  unfold convertOperand
  dsimp only
  split_ifs with hquoted htrue hfalse hnull hnumber hname
  · exact String.toList_ofList ▸ unbroken_escapeChars _
  · decide
  · decide
  · decide
  · exact unbroken_of_isNumber hnumber
  · rw [unbroken_scalar, String.toList_ofList]
    exact unbroken_of_isName hname
  · split
    next reference hreference => exact unbroken_of_qualifiedName? hreference
    next => exact String.toList_ofList ▸ unbroken_escapeChars _

theorem unbroken_joinArguments {parts : List Argument}
    (h : ∀ part ∈ parts, Unbroken part.text.toList) :
    Unbroken (joinArguments parts).text.toList := by
  unfold joinArguments
  dsimp only
  split
  · decide
  · intro hfeed
    rw [String.toList_join] at hfeed
    obtain ⟨text, htext, hfeed⟩ := List.mem_flatMap.mp hfeed
    obtain ⟨part, hpart, rfl⟩ := List.mem_map.mp htext
    split at hfeed
    · cases hfeed
    · exact h part hpart hfeed

theorem unbroken_convert (expr : String) : Unbroken (convert expr).text.toList := by
  have hwithin (fuel : Nat) (cs : List Char) : Unbroken (convertWithin fuel cs).text.toList := by
    induction fuel generalizing cs with
    | zero => exact unbroken_convertOperand _
    | succ fuel ih =>
      rw [convertWithin]
      split
      · exact unbroken_joinArguments (List.forall_mem_map.mpr fun part _ ↦ ih part)
      · exact unbroken_convertOperand _
  exact hwithin _ _

theorem unbroken_sleepTime (millis : String) : Unbroken (sleepTime millis).toList := by
  have hnumber (n : Nat) : Unbroken (Nat.toDigits 10 n) := by
    simpa using (oneLine_toString n).unbroken
  have hseconds : Unbroken "s".toList := by decide
  have hmillis : Unbroken "ms".toList := by decide
  unfold sleepTime
  dsimp only
  split
  · split
    · simpa using ⟨hnumber _, hseconds⟩
    · simpa using ⟨hnumber _, hmillis⟩
  · exact (unbroken_convert _).append hmillis

end SuiteMigration.Robot

namespace SuiteMigration

open SuiteMigration.Text SuiteMigration.Chars SuiteMigration.Keyword SuiteMigration.Robot

/-! ### Actions -/

/-- An action whose results are kept under names without line feeds, and that returns no variable
with one. Only these are copied to a row as they are. -/
def Action.Plain : Action → Prop
  | .interaction _ _ _ bind | .browser _ bind | .pageCall _ _ _ bind =>
      ∀ name ∈ bind, Unbroken name.toList
  | .assign name _ => Unbroken name.toList
  | .returns value => startsWith value "$\x7b" = true → Unbroken value.toList
  | _ => True

theorem unbroken_elementCell? {element : Element} {cell : String}
    (h : elementCell? element = some cell) : Unbroken cell.toList := by
  cases element with
  | located locator =>
    obtain ⟨text, _, rfl⟩ := Option.map_eq_some_iff.mp h
    exact unbroken_escapeCell text
  | named name =>
    rw [← Option.some.inj h, unbroken_scalar]
    exact unbroken_constant name

theorem unbroken_assigned {bind : Option String} {cells : List String}
    (hbind : ∀ name ∈ bind, Unbroken name.toList) (hcells : ∀ cell ∈ cells, Unbroken cell.toList) :
    ∀ cell ∈ assigned bind cells, Unbroken cell.toList := by
  have hequals : Unbroken "=".toList := by decide
  cases bind with
  | none => exact hcells
  | some name =>
    refine List.forall_mem_cons.mpr ⟨?_, hcells⟩
    exact (unbroken_scalar.mpr (hbind name rfl)).append hequals

theorem unbroken_reviewRows (args : List String) :
    ∀ row ∈ args.filterMap reviewRow?, Unbroken row.toList := by
  intro row hrow
  obtain ⟨arg, _, hreview⟩ := List.mem_filterMap.mp hrow
  unfold reviewRow? at hreview
  split at hreview
  · cases hreview
  · rw [← Option.some.inj hreview]
    exact unbroken_todo _

/-- The rows of a call are unbroken if its cells are, given unbroken arguments. -/
theorem unbroken_callRows {args : List String} {cells : List String → List String}
    (h : ∀ texts : List String, (∀ text ∈ texts, Unbroken text.toList) →
      ∀ cell ∈ cells texts, Unbroken cell.toList) :
    ∀ row ∈ callRows args cells, Unbroken row.toList := by
  intro row hrow
  obtain hrow | hrow := List.mem_append.mp hrow
  · exact unbroken_reviewRows args row hrow
  · rw [List.mem_singleton.mp hrow]
    exact unbroken_row (h _ (List.forall_mem_map.mpr fun arg _ ↦ unbroken_convert arg))

theorem unbroken_getD {args : List String} (h : ∀ arg ∈ args, Unbroken arg.toList) (i : Nat) :
    Unbroken (args.getD i emptyCell).toList := by
  rw [List.getD_eq_getElem?_getD]
  cases harg : args[i]? with
  | none => decide
  | some arg => exact h arg (List.mem_of_getElem? harg)

theorem unbroken_headD {args : List String} {fallback : String}
    (h : ∀ arg ∈ args, Unbroken arg.toList) (hfallback : Unbroken fallback.toList) :
    Unbroken (args.headD fallback).toList := by
  cases args with
  | nil => exact hfallback
  | cons arg rest => exact h arg List.mem_cons_self

theorem unbroken_interactionCells {locator : String} {action : ElementAction}
    {bind : Option String} {args : List String} (hlocator : Unbroken locator.toList)
    (hbind : ∀ name ∈ bind, Unbroken name.toList) (hargs : ∀ arg ∈ args, Unbroken arg.toList) :
    ∀ cell ∈ interactionCells locator action bind args, Unbroken cell.toList := by
  have hfirst : Unbroken (args.headD emptyCell).toList := unbroken_headD hargs (by decide)
  have hcells {keyword : String} (hkeyword : Unbroken keyword.toList) :
      ∀ cell ∈ [keyword, locator], Unbroken cell.toList := by
    simp [hkeyword, hlocator]
  have hcellsWith {keyword : String} (hkeyword : Unbroken keyword.toList) :
      ∀ cell ∈ [keyword, locator, args.headD emptyCell], Unbroken cell.toList := by
    simp only [List.forall_mem_cons]
    exact ⟨hkeyword, hlocator, hfirst, List.forall_mem_nil _⟩
  have hcheck : Unbroken (visibilityCheck action).toList := by
    unfold visibilityCheck
    split <;> decide
  have hstatus : ∀ cell ∈ ["Run Keyword And Return Status", visibilityCheck action, locator],
      Unbroken cell.toList :=
    List.forall_mem_cons.mpr ⟨by decide, hcells hcheck⟩
  unfold interactionCells
  dsimp only
  split
  · exact hcells (by decide)
  · exact hcellsWith (by decide)
  · exact hcells (by decide)
  · refine unbroken_assigned (fun name hname ↦ ?_) (hcells (by decide))
    cases bind with
    | none =>
      rw [← Option.some.inj hname]
      decide
    | some given => exact hbind name hname
  · split
    · exact unbroken_assigned hbind hstatus
    · exact hcells hcheck
  · split
    · exact unbroken_assigned hbind hstatus
    · exact hcells hcheck
  · decide
  · exact unbroken_assigned hbind (hcellsWith (by decide))
  · exact hcellsWith (by decide)
  · exact hcellsWith (by decide)
  · exact hcellsWith (by decide)
  · exact List.forall_mem_nil _

theorem unbroken_assertionCells (kind : AssertionKind) {args : List String}
    (h : ∀ arg ∈ args, Unbroken arg.toList) :
    ∀ cell ∈ assertionCells kind args, Unbroken cell.toList := by
  have hzero := unbroken_getD h 0
  have hone := unbroken_getD h 1
  have hnone : Unbroken (scalar "None").toList := by decide
  cases kind with
  | equals | notEquals =>
    simp only [assertionCells, List.forall_mem_cons]
    exact ⟨by decide, hzero, hone, List.forall_mem_nil _⟩
  | isTrue | isFalse =>
    simp only [assertionCells, List.forall_mem_cons]
    exact ⟨by decide, hzero, List.forall_mem_nil _⟩
  | notNull | null =>
    simp only [assertionCells, List.forall_mem_cons]
    exact ⟨by decide, hzero, hnone, List.forall_mem_nil _⟩

/-- Every row of a plain action stays on one line. -/
theorem Action.Plain.unbroken_actionRows {action : Action} (h : action.Plain) :
    ∀ row ∈ actionRows action, Unbroken row.toList := by
  have hsingle {line : String} (hline : Unbroken line.toList) :
      ∀ row ∈ [line], Unbroken row.toList :=
    List.forall_mem_singleton.mpr hline
  -- a keyword in front of the arguments
  have hkeyword {keyword : String} (hkeyword : Unbroken keyword.toList) (args : List String) :
      ∀ row ∈ callRows args (keyword :: ·), Unbroken row.toList :=
    unbroken_callRows fun _ htexts ↦ List.forall_mem_cons.mpr ⟨hkeyword, htexts⟩
  cases action with
  | interaction element action args bind =>
    rw [actionRows]
    split
    next => exact hsingle (unbroken_todo _)
    next locator hlocator =>
      split
      next method =>
        intro row hrow
        obtain hrow | hrow := List.mem_append.mp hrow
        · exact unbroken_reviewRows args row hrow
        · exact hsingle (unbroken_todo _) row hrow
      next =>
        exact unbroken_callRows fun _ ↦
          unbroken_interactionCells (unbroken_elementCell? hlocator) h
  | navigate url => exact hkeyword (by decide) _
  | browser call bind =>
    refine hsingle (unbroken_row (unbroken_assigned (fun name hname ↦ ?_) ?_))
    · exact h name (Option.eq_some_of_filter_eq_some hname)
    · cases call <;> decide
  | waitFor kind element =>
    rw [actionRows]
    split
    next => exact hsingle (unbroken_todo _)
    next locator hlocator =>
      refine hsingle (unbroken_row ?_)
      simp only [List.forall_mem_cons]
      exact ⟨by cases kind <;> decide, unbroken_elementCell? hlocator, by decide,
        List.forall_mem_nil _⟩
  | sleep millis =>
    refine hsingle (unbroken_row ?_)
    simp only [List.forall_mem_cons]
    exact ⟨by decide, unbroken_sleepTime millis, List.forall_mem_nil _⟩
  | pageCall object method args bind =>
    rw [actionRows]
    exact unbroken_callRows fun _ htexts ↦ unbroken_assigned h
      (List.forall_mem_cons.mpr ⟨unbroken_ofIdentifier method, htexts⟩)
  | assertion kind args => exact unbroken_callRows fun _ ↦ unbroken_assertionCells kind
  | log message => exact hkeyword (by decide) _
  | assign name value =>
    have hname : ∀ kept ∈ some name, Unbroken kept.toList := by
      intro kept hkept
      rw [← Option.some.inj hkept]
      exact h
    rw [actionRows]
    exact unbroken_callRows fun _ htexts ↦ unbroken_assigned hname
      (List.forall_mem_cons.mpr ⟨by decide, htexts⟩)
  | returns value =>
    rw [actionRows]
    split
    next hvariable =>
      refine hsingle (unbroken_row ?_)
      simp only [List.forall_mem_cons]
      exact ⟨by decide, h hvariable, List.forall_mem_nil _⟩
    next => exact hkeyword (by decide) _
  | unmapped statement => exact hsingle (unbroken_todo _)

/-! ### Bodies made from a pattern -/

theorem unbroken_objectVariable (input : Heuristic.Input) (position : Nat) {fallback : String}
    (h : Unbroken fallback.toList) :
    Unbroken (input.objectVariable position fallback).toList := by
  unfold Heuristic.Input.objectVariable
  dsimp only
  split
  · exact unbroken_scalar.mpr h
  · exact unbroken_scalar.mpr (unbroken_constant _)

theorem unbroken_ruleRows {input : Heuristic.Input}
    (h : ∀ arg ∈ input.args, Unbroken arg.toList) (position : Nat) :
    ∀ rule ∈ Heuristic.rules, ∀ line ∈ rule.rows input position, Unbroken line.toList := by
  have hrow {cells : List String} (hcells : ∀ cell ∈ cells, Unbroken cell.toList) :
      ∀ line ∈ [row cells], Unbroken line.toList :=
    List.forall_mem_singleton.mpr (unbroken_row hcells)
  have hobject {fallback : String} (hfallback : Unbroken fallback.toList) :=
    unbroken_objectVariable input position hfallback
  simp only [Heuristic.rules, List.forall_mem_cons]
  refine ⟨hrow ?_, hrow ?_, hrow ?_, ?_, hrow ?_, hrow ?_, List.forall_mem_nil _⟩
  · simp only [List.forall_mem_cons]
    exact ⟨by decide, unbroken_headD h (hobject (by decide)), List.forall_mem_nil _⟩
  · simp only [List.forall_mem_cons]
    exact ⟨by decide, hobject (by decide), unbroken_headD h (by decide), List.forall_mem_nil _⟩
  · simp only [List.forall_mem_cons]
    exact ⟨by decide, unbroken_headD h (by decide), List.forall_mem_nil _⟩
  · rw [Heuristic.verifyRows]
    split
    next expected hexpected =>
      refine hrow ?_
      simp only [List.forall_mem_cons]
      exact ⟨by decide, h expected (List.mem_of_getLast? hexpected), List.forall_mem_nil _⟩
    next =>
      refine List.forall_mem_cons.mpr ⟨by decide, hrow ?_⟩
      simp only [List.forall_mem_cons]
      exact ⟨by decide, unbroken_escapeCell _, List.forall_mem_nil _⟩
  · simp only [List.forall_mem_cons]
    refine ⟨by decide, ?_, List.forall_mem_nil _⟩
    split
    next arg harg =>
      have hseconds : Unbroken "s".toList := by decide
      exact (h arg (List.mem_of_head? harg)).append hseconds
    next => decide
  · simp only [List.forall_mem_cons]
    exact ⟨by decide, hobject (by decide), unbroken_headD h (by decide), List.forall_mem_nil _⟩

theorem unbroken_rowsOfPattern (pattern : String) {args : List String}
    (h : ∀ arg ∈ args, Unbroken arg.toList) :
    ∀ line ∈ Heuristic.rowsOfPattern pattern args, Unbroken line.toList := by
  have hlog : ∀ line ∈ Heuristic.logRows pattern, Unbroken line.toList := by
    refine List.forall_mem_cons.mpr ⟨unbroken_row ?_, by decide⟩
    simp only [List.forall_mem_cons]
    exact ⟨by decide, unbroken_escapeCell _, List.forall_mem_nil _⟩
  intro line hline
  unfold Heuristic.rowsOfPattern at hline
  dsimp only at hline
  cases hfound : Heuristic.rules.findSome? _ with
  | none =>
    rw [hfound] at hline
    exact hlog line hline
  | some rows =>
    rw [hfound] at hline
    obtain ⟨rule, hrule, hrows⟩ := List.exists_of_findSome?_eq_some hfound
    obtain ⟨position, _, rfl⟩ := Option.map_eq_some_iff.mp hrows
    exact unbroken_ruleRows h position rule hrule line hline

end SuiteMigration
