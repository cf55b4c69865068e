import Mathlib.Data.Bool.AllAny
import SuiteMigration.Proofs.Keyword.AlikeNames
import SuiteMigration.Proofs.Robot.Operands
import SuiteMigration.Resource.Locators

/-!
References to the constants of a class. A reference takes the name of the constant as it is, while
the variable that is declared for the constant is named after the words of that name. Words are told
apart at underscores, and also between a digit and a letter behind it; so the two names are the same
exactly if the name has no letter directly behind a digit and no underscores but single ones between
its words.
-/

set_option autoImplicit false
set_option relaxedAutoImplicit false

namespace SuiteMigration.Keyword

open SuiteMigration.Text SuiteMigration.Robot

/-! ### Names of constants -/

def capitals : List Char :=
  "ABCDEFGHIJKLMNOPQRSTUVWXYZ".toList

/-- The characters of constant names. -/
def constantChars : List Char :=
  capitals ++ "0123456789_".toList

/-- A name of capital letters, digits and underscores that starts with a letter. -/
structure ConstantName where
  text : String
  starts : ∃ c ∈ capitals, ∃ rest, text.toList = c :: rest
  chars : ∀ c ∈ text.toList, c ∈ constantChars

/-- Two characters that may follow each other in a name that is put together from its words: no
letter behind a digit, and no two underscores. -/
def Joined (c d : Char) : Prop :=
  ¬ (isAsciiDigit c = true ∧ d ∈ capitals) ∧ ¬ (c = '_' ∧ d = '_')

instance (c d : Char) : Decidable (Joined c d) :=
  inferInstanceAs (Decidable (_ ∧ _))

/-- Whether a name is put together again from its words. -/
def Rejoined (cs : List Char) : Prop :=
  cs.IsChain Joined ∧ cs.getLast? ≠ some '_'

instance (cs : List Char) : Decidable (Rejoined cs) :=
  inferInstanceAs (Decidable (_ ∧ _))

theorem rejoined_cons_cons (c d : Char) (rest : List Char) :
    Rejoined (c :: d :: rest) ↔ Joined c d ∧ Rejoined (d :: rest) := by
  rw [Rejoined, Rejoined, List.isChain_cons_cons, List.getLast?_cons_cons, and_assoc]

/-- No characters of constants but capitals and digits go on a word, and only a capital behind a
digit starts one. -/
theorem constantChars_read : ∀ c ∈ constantChars, separatesWords c = (c == '_') ∧
    isLowercase c = false ∧ isUppercase c = decide (c ∈ capitals) ∧ upperChar c = [c] :=
  List.all_iff_forall_prop.mp (by decide +kernel)

theorem startsWord_eq {before c : Char} {rest : List Char} (hbefore : before ∈ constantChars)
    (hc : c ∈ constantChars) (hrest : ∀ d ∈ rest, d ∈ constantChars) :
    startsWord before c rest.head? = (decide (c ∈ capitals) && isAsciiDigit before) := by
  have hafter : rest.head?.any isLowercase = false := by
    cases rest with
    | nil => rfl
    | cons d more => exact (constantChars_read d (hrest d List.mem_cons_self)).2.1
  rw [startsWord, (constantChars_read c hc).2.2.1, (constantChars_read before hbefore).2.1, hafter,
    Bool.false_or, Bool.or_false]

/-! ### Names from words -/

/-- Words put together start with a character of the first one. -/
theorem head?_join_identifierWordsFrom (before : Char) (cs : List Char) :
    (Chars.join ['_'] (identifierWordsFrom [] before cs)).head? ≠ some '_' := by
  intro hhead
  cases hwords : identifierWordsFrom [] before cs with
  | nil =>
    rw [hwords] at hhead
    cases hhead
  | cons word others =>
    have hword : word ∈ identifierWordsFrom [] before cs := hwords ▸ List.mem_cons_self
    obtain ⟨c, more, rfl⟩ :=
      List.exists_cons_of_ne_nil (ne_nil_of_mem_identifierWordsFrom hword)
    have hc : separatesWords c = false := mem_of_mem_identifierWordsFrom (List.forall_mem_nil _)
      (fun _ _ hd ↦ hd) hword List.mem_cons_self
    have hfirst : (Chars.join ['_'] ((c :: more) :: others)).head? = some c := by
      cases others <;> simp
    rw [hwords, hfirst, Option.some.injEq] at hhead
    subst hhead
    revert hc
    decide

theorem join_cons_eq_iff {word : List Char} {words : List (List Char)} {c : Char}
    {rest : List Char} : Chars.join ['_'] (word :: words) = word ++ c :: rest ↔
      c = '_' ∧ words ≠ [] ∧ Chars.join ['_'] words = rest := by
  cases words with
  | nil => simp
  | cons next others => simp [eq_comm]

/-- Words put together with underscores give back what is left of a name, `current` being what is
read of its last word. -/
theorem join_identifierWordsFrom_iff {current : List Char} {before : Char} {cs : List Char}
    (hcurrent : current = [] ↔ before = '_') (hbefore : before ∈ constantChars)
    (hcs : ∀ c ∈ cs, c ∈ constantChars) :
    identifierWordsFrom current before cs ≠ [] ∧
        Chars.join ['_'] (identifierWordsFrom current before cs) = current.reverse ++ cs ↔
      Rejoined (before :: cs) := by
  fun_induction identifierWordsFrom current before cs with
  | case1 current before hempty =>
    obtain rfl := hcurrent.mp (List.isEmpty_iff.mp hempty)
    exact iff_of_false (fun h ↦ h.1 rfl) (by decide)
  | case2 current before hempty =>
    have hlast : before ≠ '_' := fun heq ↦ hempty (List.isEmpty_iff.mpr (hcurrent.mpr heq))
    refine iff_of_true ⟨List.cons_ne_nil _ _, ?_⟩ ⟨List.isChain_singleton _, by simpa using hlast⟩
    rw [Chars.join_singleton, List.append_nil]
  | case3 current before c rest hc hempty ih =>
    -- An underscore behind an underscore is lost.
    obtain ⟨hmem, hrest⟩ := List.forall_mem_cons.mp hcs
    have heq : c = '_' := by rwa [(constantChars_read c hmem).1, beq_iff_eq] at hc
    obtain rfl := List.isEmpty_iff.mp hempty
    obtain rfl := hcurrent.mp rfl
    subst heq
    refine iff_of_false (fun h ↦ head?_join_identifierWordsFrom '_' rest ?_) fun h ↦ ?_
    · rw [h.2]
      rfl
    · exact ((rejoined_cons_cons _ _ _).mp h).1.2 ⟨rfl, rfl⟩
  | case4 current before c rest hc hempty ih =>
    obtain ⟨hmem, hrest⟩ := List.forall_mem_cons.mp hcs
    obtain rfl : c = '_' := by rwa [(constantChars_read c hmem).1, beq_iff_eq] at hc
    have hlast : before ≠ '_' := fun heq ↦ hempty (List.isEmpty_iff.mpr (hcurrent.mpr heq))
    have hjoined : Joined before '_' :=
      ⟨fun h ↦ absurd h.2 (by decide), fun h ↦ hlast h.1⟩
    rw [rejoined_cons_cons, and_iff_right hjoined, ← ih (by simp) hmem hrest,
      and_iff_right (List.cons_ne_nil _ _), join_cons_eq_iff, and_iff_right rfl, List.reverse_nil,
      List.nil_append]
  | case5 current before c rest hc hstarts ih =>
    obtain ⟨hmem, hrest⟩ := List.forall_mem_cons.mp hcs
    rw [startsWord_eq hbefore hmem hrest] at hstarts
    obtain ⟨hcapital, hdigit⟩ : c ∈ capitals ∧ isAsciiDigit before = true := by
      simpa using (Bool.and_eq_true_iff.mp hstarts).2
    refine iff_of_false (fun h ↦ ?_) fun h ↦ ?_
    · obtain ⟨rfl, -⟩ := join_cons_eq_iff.mp h.2
      exact absurd hcapital (by decide)
    · exact ((rejoined_cons_cons _ _ _).mp h).1.1 ⟨hdigit, hcapital⟩
  | case6 current before c rest hc hstarts ih =>
    obtain ⟨hmem, hrest⟩ := List.forall_mem_cons.mp hcs
    have hne : c ≠ '_' := by
      rwa [(constantChars_read c hmem).1, beq_iff_eq] at hc
    have hjoined : Joined before c := by
      refine ⟨fun h ↦ hstarts ?_, fun h ↦ hne h.2⟩
      have hne : current ≠ [] := fun hnil ↦ by
        rw [hcurrent.mp hnil] at h
        exact absurd h.1 (by decide)
      rw [startsWord_eq hbefore hmem hrest, h.1, decide_eq_true h.2]
      simpa using hne
    rw [rejoined_cons_cons, and_iff_right hjoined, ← ih (by simpa using hne) hmem hrest,
      List.reverse_cons, List.append_assoc, List.singleton_append]

theorem constant_toList (c : ConstantName) :
    (constant c.text).toList =
      Chars.join ['_'] (identifierWordsFrom [] ' ' c.text.toList) := by
  have hunderscore : "_".toList = ['_'] := rfl
  rw [constant, String.toList_intercalate, identifierWords, List.map_map, List.map_map, hunderscore]
  refine congrArg _ ((List.map_congr_left fun word hword ↦ ?_).trans (List.map_id _))
  have hupper : ∀ c ∈ word, upperChar c = [c] := fun d hd ↦
    mem_of_mem_identifierWordsFrom (List.forall_mem_nil _)
      (fun e he _ ↦ (constantChars_read e (c.chars e he)).2.2.2) hword hd
  rw [Function.comp_apply, Function.comp_apply, toUpper, String.toList_ofList,
    String.toList_ofList, List.flatMap_congr hupper]
  exact List.flatMap_singleton' word

/-- A name is the name of its variable exactly if it is put together again from its words. -/
theorem constant_eq_self_iff (c : ConstantName) :
    constant c.text = c.text ↔ Rejoined c.text.toList := by
  obtain ⟨first, hfirst, rest, htext⟩ := c.starts
  have hchars := c.chars
  rw [htext] at hchars
  obtain ⟨hmem, hrest⟩ := List.forall_mem_cons.mp hchars
  have hne : first ≠ '_' := fun heq ↦ absurd (heq ▸ hfirst) (by decide)
  have hread : identifierWordsFrom [] ' ' (first :: rest) =
      identifierWordsFrom [first] first rest := by
    rw [identifierWordsFrom, (constantChars_read first hmem).1, beq_false_of_ne hne]
    rfl
  have hcurrent : [first] = [] ↔ first = '_' := by simpa using hne
  rw [← String.toList_inj, constant_toList, htext, hread,
    ← join_identifierWordsFrom_iff hcurrent hmem hrest]
  refine (and_iff_right_of_imp fun hjoin hnil ↦ ?_).symm
  rw [hnil] at hjoin
  cases hjoin

end SuiteMigration.Keyword

namespace SuiteMigration.Robot

open SuiteMigration.Text SuiteMigration.Java SuiteMigration.Keyword

/-! ### Qualified names -/

/-- The name of a class: letters, numbers, underscores and dollar signs, with no number first. -/
structure ClassName where
  text : String
  starts : ∃ c rest, text.toList = c :: rest ∧ (isAlphabetic c = true ∨ c = '_' ∨ c = '$')
  chars : ∀ c ∈ text.toList, isNameChar c = true ∨ c = '$'

/-- A character of class names and of constant names, or the point between them. -/
def isReferenceChar (c : Char) : Bool :=
  isNameChar c || c == '$' || c == '.'

/-- A constant of a class as it is referred to in another one. -/
def reference (k : ClassName) (c : ConstantName) : String :=
  k.text ++ "." ++ c.text

section Reference

variable (k : ClassName) (c : ConstantName)

theorem toList_reference : (reference k c).toList = k.text.toList ++ '.' :: c.text.toList := by
  rw [reference, String.toList_append, String.toList_append, List.append_assoc]
  rfl

theorem constantChars_names : ∀ d ∈ constantChars,
    isNameChar d = true ∧ (isUppercase d || isAsciiDigit d || d == '_') = true :=
  List.all_iff_forall_prop.mp (by decide +kernel)

theorem isReferenceChar_of_mem : ∀ d ∈ (reference k c).toList, isReferenceChar d = true := by
  rw [toList_reference, List.forall_mem_append, List.forall_mem_cons]
  refine ⟨fun d hd ↦ ?_, by decide, fun d hd ↦ ?_⟩
  · obtain hname | rfl := k.chars d hd
    · rw [isReferenceChar, hname]
      rfl
    · decide
  · rw [isReferenceChar, (constantChars_names d (c.chars d hd)).1]
    rfl

theorem point_notMem_className : '.' ∉ k.text.toList := by
  intro hmem
  obtain hname | hdollar := k.chars '.' hmem
  · exact absurd hname (by decide)
  · exact absurd hdollar (by decide)

theorem isNumeric_of_isBlank {d : Char} (h : isBlank d = true) : isNumeric d = false :=
  Table.contains_eq_false_of_avoids (by decide +kernel) h

theorem isBlank_of_isReferenceChar {d : Char} (h : isReferenceChar d = true) :
    isBlank d = false := by
  refine Bool.eq_false_iff.mpr fun hblank ↦ ?_
  rw [isReferenceChar, isNameChar, isAlphanumeric, isAlphabetic_of_isBlank hblank,
    isNumeric_of_isBlank hblank] at h
  simp only [Bool.or_false, Bool.false_or, Bool.or_eq_true, beq_iff_eq] at h
  obtain (rfl | rfl) | rfl := h <;> exact absurd hblank (by decide)

/-- Nothing in a reference joins operands, separates them or is quoted. -/
theorem reads_reference : Reads .outside (reference k c).toList .outside ∧
    itemSeparator ∉ (reference k c).toList ∧ operandSeparator ∉ (reference k c).toList := by
  have hother : ∀ e ∈ [',', '+', '(', ')', '"', itemSeparator, operandSeparator],
      e ∉ (reference k c).toList := by
    have hread : ∀ e ∈ [',', '+', '(', ')', '"', itemSeparator, operandSeparator],
        isReferenceChar e = false := List.all_iff_forall_prop.mp (by decide)
    intro e he hmem
    exact Bool.eq_false_iff.mp (hread e he) (isReferenceChar_of_mem k c e hmem)
  refine ⟨reads_outside fun d hd ↦ ⟨?_, ?_⟩, hother _ (by decide), hother _ (by decide)⟩
  · simp only [isJoint, Bool.or_eq_false_iff, beq_eq_false_iff_ne]
    refine ⟨⟨⟨?_, ?_⟩, ?_⟩, ?_⟩ <;> rintro rfl <;> exact hother _ (by decide) hd
  · rintro rfl
    exact hother _ (by decide) hd

/-- A reference is no concatenation. -/
theorem convertWithin_reference (fuel : Nat) :
    convertWithin fuel (reference k c).toList = convertOperand (reference k c).toList := by
  have hblank : ∀ d ∈ (reference k c).toList, isBlank d = false :=
    fun d hd ↦ isBlank_of_isReferenceChar (isReferenceChar_of_mem k c d hd)
  have htrim : Chars.trim (reference k c).toList = (reference k c).toList :=
    Chars.trim_eq_self (fun d hd ↦ hblank d (List.mem_of_head? hd))
      fun d hd ↦ hblank d (List.mem_of_getLast? hd)
  have hone : isConcatenation (reference k c).toList = false := by
    obtain ⟨hreads, hitem, hoperand⟩ := reads_reference k c
    have hcut := hreads.operandsFrom_append hitem hoperand [] []
    rw [List.append_nil, List.append_nil, operandsFrom, List.reverse_reverse] at hcut
    have hlength := List.length_filter_le (fun part ↦ !part.isEmpty)
      [Chars.trim (reference k c).toList]
    rw [isConcatenation, operands, hcut]
    exact decide_eq_false (Nat.not_lt.mpr hlength)
  cases fuel with
  | zero => rw [convertWithin, htrim]
  | succ fuel =>
    rw [convertWithin, htrim]
    simp only [hone, Bool.false_eq_true, if_false]

/-- A text with a point is a number only if it starts like one. -/
theorem isUnsignedNumber_eq_false {d : Char} {rest : List Char} (hd : isAsciiDigit d = false)
    (hpoint : d ≠ '.') (hmem : '.' ∈ rest) : isUnsignedNumber (d :: rest) = false := by
  have hword (word : String) (hnone : '.' ∉ word.toList) :
      (toAsciiLower (String.ofList (d :: rest)) == word) = false := by
    refine beq_eq_false_iff_ne.mpr fun heq ↦ hnone ?_
    rw [← heq, toAsciiLower, String.toList_ofList, String.toList_ofList]
    exact List.mem_map.mpr ⟨'.', List.mem_cons_of_mem _ hmem, by decide⟩
  have hdigits : ¬ isAsciiDigit d = true := Bool.eq_false_iff.mp hd
  unfold isUnsignedNumber
  dsimp only
  rw [hword "inf" (by decide), hword "infinity" (by decide), hword "nan" (by decide),
    if_neg (by decide), List.takeWhile_cons_of_neg hdigits, List.dropWhile_cons_of_neg hdigits]
  split
  next heq => exact absurd (List.cons.inj heq).1 hpoint
  next => rfl

/-- A literal with a point starts like a number, whatever letters it ends with. -/
theorem isNumberLiteral_eq_false {text : String} {d : Char} {rest : List Char}
    (htext : text.toList = d :: rest) (hsign : d ≠ '+' ∧ d ≠ '-') (hd : isAsciiDigit d = false)
    (hpoint : d ≠ '.') (hmem : '.' ∈ rest) : isNumberLiteral text = false := by
  -- What is left without suffix letters still has the point and starts with the same character.
  have hkept : '.' ∈ Chars.dropEndWhile isNumberSuffix text.toList := by
    have hpoint : '.' ∈ text.toList.reverse := by
      rw [List.mem_reverse, htext]
      exact List.mem_cons_of_mem d hmem
    rw [← List.takeWhile_append_dropWhile (p := isNumberSuffix) (l := List.reverse _),
      List.mem_append] at hpoint
    rw [Chars.dropEndWhile, List.mem_reverse]
    refine hpoint.resolve_left fun hsuffix ↦ ?_
    exact absurd (List.mem_takeWhile_imp hsuffix) (by decide)
  have hprefix : Chars.dropEndWhile isNumberSuffix text.toList <+: d :: rest := by
    rw [← htext]
    exact List.rdropWhile_prefix _ _
  obtain ⟨e, more, hmore⟩ := List.exists_cons_of_ne_nil (List.ne_nil_of_mem hkept)
  rw [hmore] at hprefix hkept
  obtain ⟨rfl, -⟩ := List.cons_prefix_cons.mp hprefix
  have hrest : '.' ∈ more := (List.mem_cons.mp hkept).resolve_left (Ne.symm hpoint)
  rw [isNumberLiteral, withoutNumberSuffix, dropEndWhile, String.toList_ofList, hmore]
  unfold isNumber
  split
  next heq => exact absurd (List.cons.inj heq).1 hsign.1
  next heq => exact absurd (List.cons.inj heq).1 hsign.2
  next => exact isUnsignedNumber_eq_false hd hpoint hrest

theorem not_alphabetic_marks : ∀ e ∈ ['+', '-', '.'], isAlphabetic e = false :=
  List.all_iff_forall_prop.mp (by decide +kernel)

/-- The name of a class does not start like a number. -/
theorem exists_head_className : ∃ d rest, k.text.toList = d :: rest ∧ isAsciiDigit d = false ∧
    ∀ e ∈ ['+', '-', '.'], d ≠ e := by
  obtain ⟨d, rest, htext, hstart⟩ := k.starts
  refine ⟨d, rest, htext, ?_⟩
  obtain hletter | rfl | rfl := hstart
  · constructor
    · refine Bool.eq_false_iff.mpr fun hdigit ↦ ?_
      rw [isAlphabetic_of_isAsciiDigit hdigit] at hletter
      cases hletter
    · rintro e he rfl
      rw [not_alphabetic_marks d he] at hletter
      cases hletter
  · exact ⟨by decide, List.all_iff_forall_prop.mp (by decide)⟩
  · exact ⟨by decide, List.all_iff_forall_prop.mp (by decide)⟩

theorem isNumberLiteral_reference : isNumberLiteral (reference k c) = false := by
  obtain ⟨d, rest, htext, hdigit, hmark⟩ := exists_head_className k
  have hchars : (reference k c).toList = d :: (rest ++ '.' :: c.text.toList) := by
    rw [toList_reference, htext, List.cons_append]
  exact isNumberLiteral_eq_false hchars ⟨hmark '+' (by decide), hmark '-' (by decide)⟩ hdigit
    (hmark '.' (by decide)) (by simp)

theorem isName_constantName : isName c.text.toList = true := by
  obtain ⟨first, hfirst, rest, htext⟩ := c.starts
  have hletter : ∀ d ∈ capitals, isAlphabetic d = true := List.all_eq_true.mp (by decide +kernel)
  have hchars := c.chars
  rw [htext] at hchars ⊢
  rw [isName, hletter first hfirst, Bool.true_or, Bool.true_and, List.all_eq_true]
  exact fun d hd ↦ (constantChars_names d (hchars d (List.mem_cons_of_mem _ hd))).1

theorem isName_className_iff : isName k.text.toList = true ↔ '$' ∉ k.text.toList := by
  constructor
  · intro hname hmem
    exact absurd (isNameChar_of_isName hname '$' hmem) (by decide)
  · intro hdollar
    have hchars : ∀ d ∈ k.text.toList, isNameChar d = true := fun d hd ↦
      (k.chars d hd).resolve_right fun heq ↦ hdollar (heq ▸ hd)
    obtain ⟨first, rest, htext, hfirst⟩ := k.starts
    rw [htext] at hchars hdollar ⊢
    have hstart : isAlphabetic first = true ∨ first = '_' :=
      hfirst.imp_right fun h ↦ h.resolve_right fun heq ↦ hdollar (heq ▸ List.mem_cons_self)
    rw [isName, Bool.and_eq_true, Bool.or_eq_true, beq_iff_eq, List.all_eq_true]
    exact ⟨hstart, (List.forall_mem_cons.mp hchars).2⟩

theorem qualifiedName?_reference : qualifiedName? (reference k c).toList =
    if '$' ∈ k.text.toList then none else some (scalar c.text) := by
  have hclass : ∀ d ∈ k.text.toList, (d == '.') = false := fun d hd ↦
    beq_eq_false_iff_ne.mpr fun heq ↦ point_notMem_className k (heq ▸ hd)
  have hpoint : isNameChar '.' = false := by decide
  have hconstant : ∀ d ∈ c.text.toList, (d == '.') = false := fun d hd ↦
    beq_eq_false_iff_ne.mpr fun heq ↦ by
      rw [← heq, (constantChars_names d (c.chars d hd)).1] at hpoint
      cases hpoint
  have hparts : Chars.splitOn '.' (reference k c).toList = [k.text.toList, c.text.toList] := by
    rw [toList_reference, Chars.splitOn, Chars.splitBy_append (p := (· == '.')) rfl,
      Chars.splitBy_of_forall_not hclass, Chars.splitBy_of_forall_not hconstant]
    rfl
  have hlast : isConstantName c.text.toList = true :=
    List.all_eq_true.mpr fun d hd ↦ (constantChars_names d (c.chars d hd)).2
  unfold qualifiedName?
  dsimp only
  rw [hparts]
  simp only [List.all_cons, List.all_nil, Bool.and_true, isName_constantName, List.getLastD_cons,
    List.getLastD_nil, hlast, if_true, String.ofList_toList, isName_className_iff]
  split <;> simp_all

theorem afterStart?_this_reference : Chars.afterStart? "this.".toList (reference k c).toList =
    if k.text = "this" then some c.text.toList else none := by
  have hthis : "this.".toList = "this".toList ++ ['.'] := rfl
  split
  next heq =>
    have happend : (reference k c).toList = "this.".toList ++ c.text.toList := by
      rw [toList_reference, heq, hthis, List.append_assoc, List.singleton_append]
    rw [happend, Chars.afterStart?_append]
  next hne =>
    rw [Option.eq_none_iff_forall_ne_some]
    intro rest hrest
    have happend := Chars.eq_append_of_afterStart? hrest
    rw [toList_reference, hthis, List.append_assoc, List.singleton_append] at happend
    have hclass := Chars.breakOn?_singleton (point_notMem_className k) c.text.toList
    rw [happend, Chars.breakOn?_singleton (by decide), Option.some.injEq, Prod.mk.injEq] at hclass
    exact hne (String.toList_inj.mp hclass.1.symm)

theorem scalar_inj {name other : String} : scalar name = scalar other ↔ name = other := by
  constructor
  · intro h
    have hchars := congrArg String.toList h
    rw [scalar, scalar, String.toList_append, String.toList_append, String.toList_append,
      String.toList_append, List.append_left_inj, List.append_right_inj] at hchars
    exact String.toList_inj.mp hchars
  · exact congrArg scalar

/-- A reference is converted to the variable with the name of the constant, unless the name of the
class has a dollar sign. -/
theorem convert_reference_iff (name : String) :
    convert (reference k c) = ⟨scalar name, true⟩ ↔ '$' ∉ k.text.toList ∧ c.text = name := by
  have hword (word : String) (hnone : '.' ∉ word.toList) : (reference k c == word) = false := by
    refine beq_eq_false_iff_ne.mpr fun heq ↦ hnone ?_
    rw [← heq, toList_reference]
    simp
  have hquoted : isQuoted (reference k c).toList = false := by
    unfold isQuoted
    split
    next rest heq =>
      have hmem : '"' ∈ (reference k c).toList := heq ▸ List.mem_cons_self
      exact absurd (isReferenceChar_of_mem k c '"' hmem) (by decide)
    next => rfl
  have hname : isName (reference k c).toList = false := by
    refine Bool.eq_false_iff.mpr fun hname ↦ ?_
    have hmem : '.' ∈ (reference k c).toList := by
      rw [toList_reference]
      simp
    exact absurd (isNameChar_of_isName hname '.' hmem) (by decide)
  rw [convert, convertWithin_reference, convertOperand]
  dsimp only
  rw [hquoted, String.ofList_toList, hword "true" (by decide), hword "false" (by decide),
    hword "null" (by decide), isNumberLiteral_reference, afterStart?_this_reference]
  simp only [Bool.false_eq_true, if_false]
  by_cases hthis : k.text = "this"
  · rw [if_pos hthis, Option.getD_some, isName_constantName, if_pos rfl, String.ofList_toList,
      hthis, and_iff_right (by decide)]
    simp [scalar_inj]
  · rw [if_neg hthis, Option.getD_none, hname, if_neg Bool.false_ne_true, qualifiedName?_reference]
    by_cases hdollar : '$' ∈ k.text.toList
    · simp [hdollar]
    · simp [hdollar, scalar_inj]

end Reference

/-- A reference to a constant of a class is converted to the variable that is declared for the
constant exactly if the class has a name without dollar signs and the name of the constant is put
together again from its words: no letter stands directly behind a digit in it, no two underscores
stand side by side, and none at the end. -/
theorem constant_reference_declared_iff (k : ClassName) (c : ConstantName) (l : Locator) :
    (constant c.text = c.text ↔ Rejoined c.text.toList) ∧
      (convert (reference k c) = ⟨scalar (constantVariable ⟨c.text, l⟩).name, true⟩ ↔
        '$' ∉ k.text.toList ∧ Rejoined c.text.toList) ∧
      (convert (reference k c) = ⟨scalar (elementVariable ⟨c.text, l⟩).name, true⟩ ↔
        '$' ∉ k.text.toList ∧ Rejoined c.text.toList) := by
  have hconstant : (constantVariable ⟨c.text, l⟩).name = constant c.text := by
    unfold constantVariable
    split <;> rfl
  have helement : (elementVariable ⟨c.text, l⟩).name = constant c.text := by
    unfold elementVariable
    split <;> rfl
  rw [hconstant, helement, convert_reference_iff, eq_comm (a := c.text), constant_eq_self_iff]
  exact ⟨Iff.rfl, Iff.rfl, Iff.rfl⟩

/-- The words of the name are read as `A1` and `B`. -/
theorem constant_with_digit_undeclared :
    convert "K.A1B" = ⟨scalar "A1B", true⟩ ∧ constant "A1B" = "A1_B" ∧
      (constantVariable ⟨"A1B", ⟨"id", "x"⟩⟩).name = "A1_B" ∧
      (elementVariable ⟨"A1B", ⟨"id", "x"⟩⟩).name = "A1_B" := by
  decide +kernel

end SuiteMigration.Robot
