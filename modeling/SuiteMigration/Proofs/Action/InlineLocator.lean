import SuiteMigration.Action.Element
import SuiteMigration.Proofs.Java.CallChain
import SuiteMigration.Proofs.Java.Concatenation

/-!
Inline locators in expressions. An expression refers to an element by an inline locator exactly if
it is a call `By.strategy(argument)`, perhaps as the argument of calls of `findElement`, whose only
argument starts and ends with a quote. The value of the locator is read from what stands between
these two quotes, and they need not belong to one literal: a concatenation of literals, a comparison
or a conditional expression can start and end with a quote too.
-/

set_option autoImplicit false
set_option relaxedAutoImplicit false

namespace SuiteMigration

open SuiteMigration.Text SuiteMigration.Java

/-! ### String literals -/

/-- The inside of a string literal: no quote stands in it without a backslash before it. -/
inductive LiteralInside : List Char → Prop where
  | nil : LiteralInside []
  | plain {c : Char} {rest : List Char} (hquote : c ≠ '"') (hbackslash : c ≠ '\\')
      (hrest : LiteralInside rest) : LiteralInside (c :: rest)
  | escaped {c : Char} {rest : List Char} (hrest : LiteralInside rest) :
      LiteralInside ('\\' :: c :: rest)

/-- One string literal and nothing else: its only quotes without a backslash before them are its
first and its last character. -/
def IsLiteral (cs : List Char) : Prop :=
  ∃ inside, LiteralInside inside ∧ cs = '"' :: (inside ++ ['"'])

/-- A string literal with more text behind it that ends with a quote. -/
def GoesOnToQuote (cs : List Char) : Prop :=
  ∃ inside more, LiteralInside inside ∧ cs = '"' :: (inside ++ '"' :: (more ++ ['"']))

/-- A string literal that is not closed, because a backslash stands before its last quote. -/
def IsUnclosed (cs : List Char) : Prop :=
  ∃ inside, LiteralInside inside ∧ cs = '"' :: (inside ++ ['\\', '"'])

/-- What can follow the inside of a literal in a text that ends with a quote. -/
inductive LiteralEnd : List Char → Prop where
  | closed : LiteralEnd ['"']
  | followed (more : List Char) : LiteralEnd ('"' :: (more ++ ['"']))
  | unclosed : LiteralEnd ['\\', '"']

/-- A text that ends with a quote, read as the inside of a literal up to the first quote without a
backslash. -/
theorem exists_inside_of_getLast? {cs : List Char} (h : cs.getLast? = some '"') :
    ∃ inside tail, cs = inside ++ tail ∧ LiteralInside inside ∧ LiteralEnd tail := by
  fun_induction unescapeChars cs with
  | case1 => cases h
  | case2 c rest ih =>
    cases rest with
    | nil =>
      obtain rfl : c = '"' := by simpa using h
      exact ⟨[], _, rfl, .nil, .unclosed⟩
    | cons d more =>
      obtain ⟨inside, tail, heq, hinside, htail⟩ := ih (by simpa using h)
      exact ⟨'\\' :: c :: inside, tail, by rw [heq]; rfl, .escaped hinside, htail⟩
  | case3 c rest hescape ih =>
    cases hrest : rest with
    | nil =>
      obtain rfl : c = '"' := by simpa [hrest] using h
      exact ⟨[], _, rfl, .nil, .closed⟩
    | cons d others =>
      have hlast : rest.getLast? = some '"' := by
        rw [hrest] at h ⊢
        rwa [List.getLast?_cons_cons] at h
      rw [← hrest]
      by_cases hquote : c = '"'
      · obtain ⟨more, rfl⟩ := List.getLast?_eq_some_iff.mp hlast
        exact ⟨[], _, by rw [hquote]; rfl, .nil, .followed more⟩
      · have hbackslash : c ≠ '\\' := fun hc ↦ hescape d others hc hrest
        obtain ⟨inside, tail, heq, hinside, htail⟩ := ih hlast
        exact ⟨c :: inside, tail, by rw [heq]; rfl, .plain hquote hbackslash hinside, htail⟩

theorem isQuoted_iff (cs : List Char) :
    isQuoted cs = true ↔ IsLiteral cs ∨ GoesOnToQuote cs ∨ IsUnclosed cs := by
  constructor
  · intro h
    obtain ⟨body, rfl⟩ := exists_of_isQuoted h
    obtain ⟨inside, tail, hbody, hinside, htail⟩ :=
      exists_inside_of_getLast? (List.getLast?_concat (l := body) (a := '"'))
    rw [hbody]
    cases htail with
    | closed => exact Or.inl ⟨inside, hinside, rfl⟩
    | followed more => exact Or.inr (Or.inl ⟨inside, more, hinside, rfl⟩)
    | unclosed => exact Or.inr (Or.inr ⟨inside, hinside, rfl⟩)
  · have hlast (front : List Char) : isQuoted ('"' :: (front ++ ['"'])) = true := by
      rw [isQuoted, List.getLast?_concat, beq_self_eq_true]
    rintro (⟨inside, _, rfl⟩ | ⟨inside, more, _, rfl⟩ | ⟨inside, _, rfl⟩)
    · exact hlast inside
    · simpa only [List.append_assoc, List.cons_append] using hlast (inside ++ '"' :: more)
    · simpa only [List.append_assoc, List.cons_append, List.nil_append] using
        hlast (inside ++ ['\\'])

/-- Where the inside of a literal ends is settled by its text. -/
theorem LiteralInside.eq_of_append_quote {inside other more rest : List Char}
    (h : LiteralInside inside) (hother : LiteralInside other)
    (heq : inside ++ '"' :: more = other ++ '"' :: rest) : inside = other ∧ more = rest := by
  induction h generalizing other with
  | nil =>
    cases hother with
    | nil => exact ⟨rfl, (List.cons.inj heq).2⟩
    | plain hquote => exact absurd (List.cons.inj heq).1.symm hquote
    | escaped => exact absurd (List.cons.inj heq).1 (by decide)
  | plain hquote hbackslash _ ih =>
    cases hother with
    | nil => exact absurd (List.cons.inj heq).1 hquote
    | plain _ _ hrest =>
      obtain ⟨rfl, htail⟩ := List.cons.inj heq
      obtain ⟨rfl, hmore⟩ := ih hrest htail
      exact ⟨rfl, hmore⟩
    | escaped => exact absurd (List.cons.inj heq).1 hbackslash
  | escaped _ ih =>
    cases hother with
    | nil => exact absurd (List.cons.inj heq).1 (by decide)
    | plain _ hbackslash => exact absurd (List.cons.inj heq).1.symm hbackslash
    | escaped hrest =>
      obtain ⟨rfl, htail⟩ := List.cons.inj (List.cons.inj heq).2
      obtain ⟨rfl, hmore⟩ := ih hrest htail
      exact ⟨rfl, hmore⟩

theorem LiteralInside.append {inside other : List Char} (h : LiteralInside inside)
    (hother : LiteralInside other) : LiteralInside (inside ++ other) := by
  induction h with
  | nil => exact hother
  | plain hquote hbackslash _ ih => exact .plain hquote hbackslash ih
  | escaped _ ih => exact .escaped ih

/-- The inside of a literal has no quote that closes it. -/
theorem LiteralInside.ne_append_quote {inside other more : List Char} (h : LiteralInside inside)
    (hother : LiteralInside other) : inside ≠ other ++ '"' :: more := by
  intro heq
  have hlonger : inside ++ '"' :: [] = other ++ '"' :: (more ++ ['"']) := by
    rw [heq, List.append_assoc, List.cons_append]
  obtain ⟨-, hmore⟩ := h.eq_of_append_quote hother hlonger
  simp at hmore

/-- The three forms of a text between two quotes exclude each other. -/
theorem isLiteral_iff_of_isQuoted {cs : List Char} (h : isQuoted cs = true) :
    IsLiteral cs ↔ ¬ GoesOnToQuote cs ∧ ¬ IsUnclosed cs := by
  refine ⟨?_, fun ⟨hgoes, hunclosed⟩ ↦ ?_⟩
  · rintro ⟨inside, hinside, rfl⟩
    refine ⟨?_, ?_⟩
    · rintro ⟨other, more, hother, heq⟩
      obtain ⟨-, hmore⟩ := hinside.eq_of_append_quote hother (List.cons.inj heq).2
      simp at hmore
    · rintro ⟨other, hother, heq⟩
      exact (hother.append (.escaped .nil)).ne_append_quote hinside (List.cons.inj heq).2.symm
  · rcases (isQuoted_iff cs).mp h with hliteral | hother | hother
    · exact hliteral
    · exact absurd hother hgoes
    · exact absurd hother hunclosed

/-! ### Locators -/

/-- The reference to the object itself. -/
def thisLink : Link :=
  ⟨"this", none⟩

/-- An expression that locates an element by the strategy `s` and the argument `a`: a chain that
ends with `By.s(a)`, with nothing but `this` before `By`, or a chain that ends with `findElement`
and locates by its argument. The reader does not look whether `By` has arguments of its own. -/
inductive Locates : List Char → String → List Char → Prop where
  | direct {cs : List Char} {n : Nat} {qualifier : Option (List String)} {s a : String}
      (h : ChainText cs (List.replicate n thisLink ++ [⟨"By", qualifier⟩, ⟨s, some [a]⟩])) :
      Locates cs s (Chars.trim a.toList)
  | found {cs a : List Char} {links : List Link} {arg s : String}
      (h : ChainText cs (links ++ [⟨"findElement", some [arg]⟩]))
      (hlinks : ∀ n qualifier, links ≠ List.replicate n thisLink ++ [⟨"By", qualifier⟩])
      (harg : Locates (Chars.trim arg.toList) s a) : Locates cs s a

theorem dropThis_cons_thisLink {links : List Link} (h : links ≠ []) :
    dropThis (thisLink :: links) = dropThis links := by
  obtain ⟨second, rest, rfl⟩ := List.exists_cons_of_ne_nil h
  rw [dropThis]
  exact if_pos (by decide)

theorem dropThis_replicate (n : Nat) {links : List Link} (h : links ≠ []) :
    dropThis (List.replicate n thisLink ++ links) = dropThis links := by
  induction n with
  | zero => rfl
  | succ n ih =>
    rw [List.replicate_succ, List.cons_append,
      dropThis_cons_thisLink (List.append_ne_nil_of_right_ne_nil _ h), ih]

theorem exists_replicate_dropThis (links : List Link) :
    ∃ n, links = List.replicate n thisLink ++ dropThis links := by
  fun_induction dropThis links with
  | case1 first second rest hthis ih =>
    obtain ⟨n, hn⟩ := ih
    rw [Bool.and_eq_true, beq_iff_eq, Option.isNone_iff_eq_none] at hthis
    obtain rfl : first = thisLink := by rw [thisLink, ← hthis.1, ← hthis.2]
    refine ⟨n + 1, ?_⟩
    rw [List.replicate_succ, List.cons_append, ← hn]
  | case2 => exact ⟨0, rfl⟩
  | case3 => exact ⟨0, rfl⟩

theorem getLast?_dropThis (links : List Link) : (dropThis links).getLast? = links.getLast? := by
  fun_induction dropThis links with
  | case1 first second rest hthis ih => rw [ih, List.getLast?_cons_cons]
  | case2 => rfl
  | case3 => rfl

theorem isLocatorCall_iff (links : List Link) :
    isLocatorCall links = true ↔ ∃ qualifier s a, links = [⟨"By", qualifier⟩, ⟨s, some [a]⟩] := by
  constructor
  · intro h
    unfold isLocatorCall at h
    split at h
    next source strategy =>
      rw [Bool.and_eq_true, beq_iff_eq, beq_iff_eq, List.length_eq_one_iff] at h
      obtain ⟨hname, a, ha⟩ := h
      obtain ⟨name, qualifier⟩ := source
      obtain ⟨s, args?⟩ := strategy
      obtain rfl : name = "By" := hname
      cases args? with
      | none => cases ha
      | some args =>
        obtain rfl : args = [a] := ha
        exact ⟨qualifier, s, a, rfl⟩
    next => cases h
  · rintro ⟨qualifier, s, a, rfl⟩
    rfl

theorem dropThis_locator (n : Nat) (qualifier : Option (List String)) (strategy : Link) :
    dropThis (List.replicate n thisLink ++ [⟨"By", qualifier⟩, strategy]) =
      [⟨"By", qualifier⟩, strategy] := by
  rw [dropThis_replicate n (List.cons_ne_nil _ _), dropThis]
  exact if_neg (by simp)

theorem isLocatorCall_dropThis_iff (links : List Link) :
    isLocatorCall (dropThis links) = true ↔ ∃ n qualifier s a,
      links = List.replicate n thisLink ++ [⟨"By", qualifier⟩, ⟨s, some [a]⟩] := by
  rw [isLocatorCall_iff]
  constructor
  · rintro ⟨qualifier, s, a, hlinks⟩
    obtain ⟨n, hn⟩ := exists_replicate_dropThis links
    exact ⟨n, qualifier, s, a, by rw [← hlinks]; exact hn⟩
  · rintro ⟨n, qualifier, s, a, rfl⟩
    exact ⟨qualifier, s, a, dropThis_locator n qualifier _⟩

/-- An expression locates by one strategy and one argument at most. -/
theorem Locates.unique {cs a a' : List Char} {s s' : String} (h : Locates cs s a)
    (h' : Locates cs s' a') : s = s' ∧ a = a' := by
  induction h generalizing s' a' with
  | direct htext =>
    cases h' with
    | direct htext' =>
      have hlinks := (List.append_cons _ _ _).symm.trans
        ((htext.unique htext').trans (List.append_cons _ _ _))
      have hlast := List.append_inj_right' hlinks rfl
      simp only [List.cons.injEq, Link.mk.injEq, Option.some.injEq, and_true] at hlast
      exact ⟨hlast.1, by rw [hlast.2]⟩
    | found htext' hlinks =>
      have heq := htext'.unique htext
      exact absurd (List.append_inj_left' (heq.trans (List.append_cons _ _ _)) rfl) (hlinks _ _)
  | found htext hlinks _ ih =>
    cases h' with
    | direct htext' =>
      have heq := htext.unique htext'
      exact absurd (List.append_inj_left' (heq.trans (List.append_cons _ _ _)) rfl) (hlinks _ _)
    | found htext' _ harg =>
      have hlast := List.append_inj_right' (htext.unique htext') rfl
      simp only [List.cons.injEq, Link.mk.injEq, Option.some.injEq, and_true, true_and] at hlast
      subst hlast
      exact ih harg

section Element

variable (fuel : Nat)

theorem elementWithin_locator (n : Nat) (qualifier : Option (List String)) (s a : String) :
    elementWithin (fuel + 1)
        (dropThis (List.replicate n thisLink ++ [⟨"By", qualifier⟩, ⟨s, some [a]⟩])) =
      if isQuoted (Chars.trim a.toList) then
        some (.located ⟨s, String.ofList (unescapeChars (inner (Chars.trim a.toList)))⟩)
      else none := by
  have hlocator : isLocatorCall [⟨"By", qualifier⟩, ⟨s, some [a]⟩] = true := rfl
  rw [dropThis_locator, elementWithin, if_pos hlocator]
  exact apply_ite (Option.map Element.located) _ _ _

theorem elementWithin_found {links : List Link} (arg : String)
    (hlinks : ∀ n qualifier, links ≠ List.replicate n thisLink ++ [⟨"By", qualifier⟩]) :
    elementWithin (fuel + 1) (dropThis (links ++ [⟨"findElement", some [arg]⟩])) =
      (callChain? (trim arg)).bind (elementWithin fuel) := by
  have hlocator : ¬ isLocatorCall (dropThis (links ++ [⟨"findElement", some [arg]⟩])) = true := by
    intro h
    obtain ⟨n, qualifier, s, a, heq⟩ := (isLocatorCall_dropThis_iff _).mp h
    exact hlinks n qualifier (List.append_inj_left' (heq.trans (List.append_cons _ _ _)) rfl)
  rw [elementWithin, if_neg hlocator, getLast?_dropThis, List.getLast?_concat]
  rfl

/-- What an element is found by. -/
theorem elementWithin_cases {links : List Link} {e : Element}
    (h : elementWithin (fuel + 1) (dropThis links) = some e) :
    (∃ n qualifier s a,
      links = List.replicate n thisLink ++ [⟨"By", qualifier⟩, ⟨s, some [a]⟩]) ∨
      ∃ front arg, links = front ++ [⟨"findElement", some [arg]⟩] ∧
        ∀ n qualifier, front ≠ List.replicate n thisLink ++ [⟨"By", qualifier⟩] := by
  by_cases hlocator : isLocatorCall (dropThis links) = true
  · exact Or.inl ((isLocatorCall_dropThis_iff links).mp hlocator)
  · rw [elementWithin, if_neg hlocator, getLast?_dropThis] at h
    split at h
    next => cases h
    next find hfind =>
      obtain ⟨front, rfl⟩ := List.getLast?_eq_some_iff.mp hfind
      split at h
      next hcall =>
        split at h
        next arg harg =>
          obtain ⟨name, args?⟩ := find
          obtain ⟨hname, hargs⟩ : name = "findElement" ∧ args?.isSome = true := by
            simpa [Link.isCall] using hcall
          obtain ⟨args, rfl⟩ := Option.isSome_iff_exists.mp hargs
          obtain rfl : args = [arg] := harg
          subst hname
          refine Or.inr ⟨front, arg, rfl, ?_⟩
          rintro n qualifier rfl
          refine hlocator ((isLocatorCall_dropThis_iff _).mpr
            ⟨n, qualifier, "findElement", arg, ?_⟩)
          exact (List.append_cons _ _ _).symm
        next => cases h
      next => cases h

end Element

/-- Which chain locates an element, and by which argument. Arguments are shorter than their chain,
so the fuel suffices if it exceeds the length of the text. -/
theorem elementWithin_iff {fuel : Nat} {cs : List Char} (hfuel : cs.length < fuel) (e : Element) :
    (callChain? (String.ofList cs)).bind (elementWithin fuel) = some e ↔
      ∃ s a, Locates cs s a ∧ isQuoted a = true ∧
        e = .located ⟨s, String.ofList (unescapeChars (inner a))⟩ := by
  induction fuel generalizing cs with
  | zero => exact absurd hfuel (Nat.not_lt_zero _)
  | succ fuel ih =>
    have hread {all : List Link} (h : ChainText cs all) :
        callChain? (String.ofList cs) = some (dropThis all) :=
      callChain?_eq_some_iff.mpr ⟨all, by rwa [String.toList_ofList], rfl⟩
    have hshorter {front : List Link} {arg : String}
        (h : ChainText cs (front ++ [⟨"findElement", some [arg]⟩])) :
        (Chars.trim arg.toList).length < fuel := by
      have harg := h.length_arg_lt (List.mem_append_right _ List.mem_cons_self) rfl
        (List.mem_singleton.mpr rfl)
      have htrim := length_trim_le arg.toList
      rw [String.length_toList] at htrim
      omega
    constructor
    · intro h
      obtain ⟨links, hchain, helement⟩ := Option.bind_eq_some_iff.mp h
      obtain ⟨all, htext, rfl⟩ := callChain?_eq_some_iff.mp hchain
      rw [String.toList_ofList] at htext
      rcases elementWithin_cases fuel helement with
        ⟨n, qualifier, s, a, rfl⟩ | ⟨front, arg, rfl, hfront⟩
      · rw [elementWithin_locator] at helement
        split at helement
        next hquoted =>
          cases helement
          exact ⟨s, _, .direct htext, hquoted, rfl⟩
        next => cases helement
      · rw [elementWithin_found fuel arg hfront] at helement
        obtain ⟨s, a, hlocates, hquoted, he⟩ := (ih (hshorter htext)).mp helement
        exact ⟨s, a, .found htext hfront hlocates, hquoted, he⟩
    · rintro ⟨s, a, hlocates, hquoted, rfl⟩
      cases hlocates with
      | direct htext =>
        rw [hread htext, Option.bind_some, elementWithin_locator, if_pos hquoted]
      | found htext hfront harg =>
        rw [hread htext, Option.bind_some, elementWithin_found fuel _ hfront]
        exact (ih (hshorter htext)).mpr ⟨s, a, harg, hquoted, rfl⟩

/-- An expression gives an inline locator exactly if it locates an element by an argument that
starts and ends with a quote, and the value is read from what stands between these. That argument is
a single literal exactly if nothing follows the literal with which it starts and no backslash stands
before its last quote. -/
theorem inline_locator_argument (expr s v : String) :
    parseElement? expr = some (.located ⟨s, v⟩) ↔
      ∃ a, Locates (Chars.trim expr.toList) s a ∧ isQuoted a = true ∧
        (IsLiteral a ↔ ¬ GoesOnToQuote a ∧ ¬ IsUnclosed a) ∧
        v = String.ofList (unescapeChars (inner a)) := by
  have hfuel : (Chars.trim expr.toList).length < expr.length + 1 :=
    Nat.lt_succ_of_le ((length_trim_le _).trans (Nat.le_of_eq String.length_toList))
  refine (elementWithin_iff hfuel _).trans ⟨?_, ?_⟩
  · rintro ⟨s', a, hlocates, hquoted, heq⟩
    cases heq
    exact ⟨a, hlocates, hquoted, isLiteral_iff_of_isQuoted hquoted, rfl⟩
  · rintro ⟨a, hlocates, hquoted, -, rfl⟩
    exact ⟨s, a, hlocates, hquoted, rfl⟩

/-- A concatenation that starts and ends with a literal is taken for one literal. -/
theorem concatenation_taken_for_literal :
    parseElement? "By.id(\"a\" + n + \"b\")" = some (.located ⟨"id", "a\" + n + \"b"⟩) ∧
      ¬ ∃ a, Locates "By.id(\"a\" + n + \"b\")".toList "id" a ∧ IsLiteral a := by
  refine ⟨by decide +kernel, ?_⟩
  rintro ⟨a, hlocates, hliteral⟩
  have hchain : chainFrom 2 "By.id(\"a\" + n + \"b\")".toList =
      some [⟨"By", none⟩, ⟨"id", some ["\"a\" + n + \"b\""]⟩] := by decide +kernel
  have hsame := hlocates.unique (.direct (n := 0) (chainFrom_eq_some_iff.mp hchain).1)
  have hinside : LiteralInside ['a'] := .plain (by decide) (by decide) .nil
  have hquoted : isQuoted a = true := by rw [hsame.2]; decide +kernel
  exact ((isLiteral_iff_of_isQuoted hquoted).mp hliteral).1
    ⟨['a'], " + n + \"b".toList, hinside, by rw [hsame.2]; decide +kernel⟩

end SuiteMigration
