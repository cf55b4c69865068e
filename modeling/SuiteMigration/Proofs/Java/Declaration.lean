import SuiteMigration.Java.Outline
import SuiteMigration.Proofs.Java.Delimiter
import SuiteMigration.Proofs.Java.JoinedArguments
import SuiteMigration.Proofs.Text.Words

/-!
Declarations that are written out: names, parameter lists and method signatures, and what the reader
of a header makes of them. A signature is plain code with single spaces, so that annotations,
comments and literals play no part in it.
-/

set_option autoImplicit false
set_option relaxedAutoImplicit false

namespace SuiteMigration.Java

open SuiteMigration.Text SuiteMigration.Chars

/-! ### Names -/

def isIdentifierChar (c : Char) : Bool :=
  isIdentifierStart c || isAsciiDigit c

def isIdentifier : List Char → Bool
  | [] => false
  | c :: rest => isIdentifierStart c && rest.all isIdentifierChar

/-- A name: ASCII letters, digits and underscores, the first of them no digit. -/
structure Identifier where
  text : String
  valid : isIdentifier text.toList = true
  deriving DecidableEq

def Identifier.chars (i : Identifier) : List Char :=
  i.text.toList

def asciiChars : List Char :=
  (List.range 128).map Char.ofNat

theorem mem_asciiChars {c : Char} (h : isIdentifierChar c = true) : c ∈ asciiChars := by
  have hascii : c.toNat < 128 := by
    simp only [isIdentifierChar, isIdentifierStart, isAsciiLetter, isAsciiDigit, Bool.or_eq_true,
      Bool.and_eq_true, decide_eq_true_eq, beq_iff_eq, Char.le_def, UInt32.le_iff_toNat_le,
      Char.ext_iff, ← UInt32.toNat_inj, Char.reduceVal, UInt32.reduceToNat] at h
    rw [Char.toNat]
    omega
  exact List.mem_map.mpr ⟨c.toNat, List.mem_range.mpr hascii, Char.ofNat_toNat c⟩

/-- A character that neither separates arguments nor starts a literal or a bracket. -/
def isArgumentChar (c : Char) : Bool :=
  c != ',' && c != '"' && c != '\x27' && !isOpenBracket c && !isCloseBracket c

/-- How the readers class a character of a name. -/
structure NameClasses (c : Char) : Prop where
  name : isNameChar c = true
  word : isWordChar c = true
  visible : isBlank c = false
  plain : isPlain c = true
  argument : isArgumentChar c = true

theorem nameClasses {c : Char} (h : isIdentifierChar c = true) : NameClasses c := by
  -- the classes come from tables of code points, so they are looked up for all of ASCII at once
  have hascii : asciiChars.all (fun d ↦ !isIdentifierChar d || (isNameChar d && isWordChar d &&
      !isBlank d && isPlain d && isArgumentChar d)) = true := by
    decide +kernel
  have hc := List.all_eq_true.mp hascii c (mem_asciiChars h)
  simp only [h, Bool.not_true, Bool.false_or, Bool.and_eq_true, Bool.not_eq_true'] at hc
  obtain ⟨⟨⟨⟨hname, hword⟩, hvisible⟩, hplain⟩, hargument⟩ := hc
  exact ⟨hname, hword, hvisible, hplain, hargument⟩

namespace Identifier

variable (i : Identifier)

theorem exists_cons : ∃ c rest, i.chars = c :: rest ∧ isIdentifierStart c = true ∧
    ∀ d ∈ rest, isIdentifierChar d = true := by
  have hvalid := i.valid
  rw [isIdentifier.eq_def] at hvalid
  split at hvalid
  next => cases hvalid
  next c rest htext =>
    rw [Bool.and_eq_true, List.all_eq_true] at hvalid
    exact ⟨c, rest, htext, hvalid.1, hvalid.2⟩

theorem chars_ne_nil : i.chars ≠ [] := by
  obtain ⟨c, rest, hchars, _⟩ := i.exists_cons
  simp [hchars]

theorem isIdentifierChar : ∀ c ∈ i.chars, isIdentifierChar c = true := by
  obtain ⟨c, rest, hchars, hstart, hrest⟩ := i.exists_cons
  intro d hd
  rw [hchars, List.mem_cons] at hd
  rcases hd with rfl | hd
  · simp [Java.isIdentifierChar, hstart]
  · exact hrest d hd

theorem isBlank : ∀ c ∈ i.chars, isBlank c = false :=
  fun c hc ↦ (nameClasses (i.isIdentifierChar c hc)).visible

theorem notMem {c : Char} (h : Java.isIdentifierChar c = false) : c ∉ i.chars := by
  intro hc
  rw [i.isIdentifierChar c hc] at h
  cases h

end Identifier

/-! ### Signatures -/

/-- A character of a method signature. -/
def isSignatureSymbol (c : Char) : Bool :=
  isIdentifierChar c || c == ' ' || c == ',' || c == '(' || c == ')'

theorem isPlain_of_isSignatureSymbol {c : Char} (h : isSignatureSymbol c = true) :
    isPlain c = true := by
  simp only [isSignatureSymbol, Bool.or_eq_true, beq_iff_eq] at h
  rcases h with (((h | rfl) | rfl) | rfl) | rfl
  · exact (nameClasses h).plain
  all_goals decide

/-- The declaration of one parameter. -/
def parameter (name : Identifier) : String :=
  "String " ++ name.text

def parameterList (params : List Identifier) : String :=
  ", ".intercalate (params.map parameter)

def signature (name : Identifier) (params : List Identifier) : String :=
  "public void " ++ name.text ++ "(" ++ parameterList params ++ ")"

theorem toList_parameter (name : Identifier) :
    (parameter name).toList = "String".toList ++ ' ' :: name.chars := by
  unfold parameter
  simp [Identifier.chars]

theorem toList_parameterList (params : List Identifier) :
    (parameterList params).toList = join [',', ' '] (params.map fun p ↦ (parameter p).toList) := by
  simp [parameterList, join, Function.comp_def]

theorem toList_signature (name : Identifier) (params : List Identifier) :
    (signature name params).toList = "public".toList ++ ' ' :: ("void".toList ++ ' ' ::
      ((name.chars ++ ['(']) ++ ((parameterList params).toList ++ [')']))) := by
  unfold signature
  simp [Identifier.chars]

theorem mem_parameter {p : Identifier} {c : Char} (h : c ∈ (parameter p).toList) :
    isIdentifierChar c = true ∨ c = ' ' := by
  have htype : "String".toList.all isIdentifierChar = true := by decide
  rw [toList_parameter, List.mem_append, List.mem_cons] at h
  rcases h with h | h | h
  · exact Or.inl (List.all_eq_true.mp htype c h)
  · exact Or.inr h
  · exact Or.inl (p.isIdentifierChar c h)

theorem mem_parameterList {params : List Identifier} {c : Char}
    (h : c ∈ (parameterList params).toList) : isIdentifierChar c = true ∨ c = ' ' ∨ c = ',' := by
  rw [toList_parameterList] at h
  rcases mem_join h with h | ⟨_, hpart, hc⟩
  · rw [List.mem_cons, List.mem_singleton] at h
    exact Or.inr h.symm
  · obtain ⟨p, _, rfl⟩ := List.mem_map.mp hpart
    exact (mem_parameter hc).imp_right Or.inl

theorem isSignatureSymbol_of_mem {name : Identifier} {params : List Identifier} {c : Char}
    (h : c ∈ (signature name params).toList) : isSignatureSymbol c = true := by
  have hpublic : "public".toList.all isSignatureSymbol = true := by decide
  have hvoid : "void".toList.all isSignatureSymbol = true := by decide
  rw [toList_signature] at h
  simp only [List.mem_append, List.mem_cons, List.not_mem_nil, or_false] at h
  rcases h with h | rfl | h | rfl | (h | rfl) | h | rfl
  · exact List.all_eq_true.mp hpublic c h
  · simp [isSignatureSymbol]
  · exact List.all_eq_true.mp hvoid c h
  · simp [isSignatureSymbol]
  · simp [isSignatureSymbol, name.isIdentifierChar c h]
  · simp [isSignatureSymbol]
  · rcases mem_parameterList h with h | h | h <;> simp [isSignatureSymbol, h]
  · simp [isSignatureSymbol]

theorem toList_parameterList_cons (p : Identifier) (rest : List Identifier) :
    (parameterList (p :: rest)).toList = "String".toList ++ ' ' :: (p.chars ++
      if rest.isEmpty then [] else ',' :: ' ' :: (parameterList rest).toList) := by
  rw [toList_parameterList, toList_parameterList]
  cases rest with
  | nil => simp [toList_parameter]
  | cons q more => simp [toList_parameter]

/-- A front without spaces and a parameter list are words with single spaces; a space follows the
last letter of a type or a comma. -/
theorem spaced_parameters {front : List Char} (hfront : ∀ c ∈ front, isBlank c = false)
    (params : List Identifier) :
    Spaced ['c', 'd', 'g', ','] (front ++ ((parameterList params).toList ++ [')'])) := by
  have hclose : isBlank ')' = false := by decide
  have hcomma : isBlank ',' = false := by decide
  have htype : ∀ c ∈ "String".toList, isBlank c = false := isBlank_of_any (by decide)
  induction params generalizing front with
  | nil =>
    refine .word (by simp) ?_
    simpa [parameterList, or_imp, forall_and, hclose] using hfront
  | cons p rest ih =>
    have hword : ∀ c ∈ front ++ "String".toList, isBlank c = false := by
      intro c hc
      exact (List.mem_append.mp hc).elim (hfront c) (htype c)
    have htail : Spaced ['c', 'd', 'g', ','] (p.chars ++
        ((if rest.isEmpty then [] else ',' :: ' ' :: (parameterList rest).toList) ++ [')'])) := by
      cases hrest : rest.isEmpty with
      | true =>
        refine .word (by simp) ?_
        simpa [or_imp, forall_and, hclose] using p.isBlank
      | false =>
        have hname : ∀ c ∈ p.chars ++ [','], isBlank c = false := by
          simpa [or_imp, forall_and, hcomma] using p.isBlank
        have hmore := ih (show ∀ c ∈ [], isBlank c = false by simp)
        simpa using Spaced.append (by simp) hname (by simp) hmore
    rw [toList_parameterList_cons]
    simpa using Spaced.append (by simp) hword (by simp) htail

/-- In a signature a space follows the last letter of `public`, of `void` or of a type, or a
comma. -/
theorem spaced_signature (name : Identifier) (params : List Identifier) :
    Spaced ['c', 'd', 'g', ','] (signature name params).toList := by
  have hopen : isBlank '(' = false := by decide
  have hname : ∀ c ∈ name.chars ++ ['('], isBlank c = false := by
    simpa [or_imp, forall_and, hopen] using name.isBlank
  rw [toList_signature]
  exact .append (by simp) (isBlank_of_any (by decide)) (by simp)
    (.append (by simp) (isBlank_of_any (by decide)) (by simp) (spaced_parameters hname params))

/-! ### Headers without annotations -/

theorem annotationsFrom_plain {cs : List Char} (hquote : '"' ∉ cs) (hsign : '@' ∉ cs)
    (found : List AnnotationUse) (rest : List Char) {fuel : Nat} (hfuel : cs.length ≤ fuel) :
    annotationsFrom fuel found rest cs = .ok (found.reverse, rest.reverse ++ cs) := by
  induction cs generalizing rest fuel with
  | nil => cases fuel <;> simp [annotationsFrom]
  | cons c more ih =>
    cases fuel with
    | zero => simp at hfuel
    | succ fuel =>
      simp only [List.mem_cons, not_or] at hquote hsign
      have hc : (c == '"') = false ∧ (c == '@') = false := by
        simp [Ne.symm hquote.1, Ne.symm hsign.1]
      rw [annotationsFrom, hc.1, hc.2, if_neg Bool.false_ne_true, if_neg Bool.false_ne_true,
        ih hquote.2 hsign.2 _ (by simpa using hfuel)]
      simp

theorem splitAnnotations_plain {header : String} (hquote : '"' ∉ header.toList)
    (hsign : '@' ∉ header.toList) :
    splitAnnotations header = .ok ⟨[], Text.collapse header⟩ := by
  rw [splitAnnotations, annotationsFrom_plain hquote hsign [] [] (Nat.le_succ _)]
  rfl

/-! ### Arguments -/

/-- A text without quotes stands outside literals as a whole. -/
theorem outside_of_isArgumentChar {cs : List Char} (h : ∀ c ∈ cs, isArgumentChar c = true) :
    Quotation.outside.after cs = .outside ∧ outsideLiterals .outside cs = cs := by
  induction cs with
  | nil => exact ⟨rfl, rfl⟩
  | cons c more ih =>
    have hc := h c List.mem_cons_self
    simp only [isArgumentChar, Bool.and_eq_true, bne_iff_ne] at hc
    have hnext : Quotation.next isLiteralQuote .outside c = .outside := by
      simp [Quotation.next, isLiteralQuote, hc]
    obtain ⟨hafter, houtside⟩ := ih fun d hd ↦ h d (List.mem_cons_of_mem _ hd)
    constructor
    · rw [Quotation.after, List.foldl_cons, hnext]
      exact hafter
    · rw [outsideLiterals, if_pos rfl, hnext, houtside]

theorem isArgument_of_isArgumentChar {cs : List Char} (hne : cs ≠ []) (htrim : trim cs = cs)
    (h : ∀ c ∈ cs, isArgumentChar c = true) : IsArgument cs := by
  have hchars : ∀ c ∈ cs, c ≠ ',' ∧ isOpenBracket c = false ∧ isCloseBracket c = false := by
    intro c hc
    have hchar := h c hc
    simp only [isArgumentChar, Bool.and_eq_true, bne_iff_ne, Bool.not_eq_true'] at hchar
    simp [hchar]
  obtain ⟨hclosed, houtside⟩ := outside_of_isArgumentChar h
  refine ⟨hne, htrim, hclosed, ?_, fun before hcomma _ ↦ ?_⟩
  · rw [bracketDepth, houtside, List.countP_eq_zero.mpr, List.countP_eq_zero.mpr]
    · rfl
    · simpa using fun c hc ↦ (hchars c hc).2.2
    · simpa using fun c hc ↦ (hchars c hc).2.1
  · exact absurd rfl (hchars ',' (hcomma.subset (by simp))).1

theorem spaced_parameter (p : Identifier) : Spaced ['g'] (parameter p).toList := by
  rw [toList_parameter]
  exact .append (by simp) (isBlank_of_any (by decide)) (by simp)
    (.word p.chars_ne_nil p.isBlank)

theorem parameterName?_parameter (p : Identifier) : parameterName? (parameter p) = some p.text := by
  have hplain {c : Char} (hc : isIdentifierChar c = false) (hspace : c ≠ ' ') :
      c ∉ (parameter p).toList := by
    intro h
    rcases mem_parameter h with h | h
    · simp [h] at hc
    · exact hspace h
  have hheader : splitAnnotations (parameter p) = .ok ⟨[], parameter p⟩ := by
    rw [splitAnnotations_plain (hplain (by decide) (by decide)) (hplain (by decide) (by decide)),
      Text.collapse, (spaced_parameter p).collapse_eq, String.ofList_toList]
  have hwords : Text.words (parameter p) = ["String", p.text] := by
    rw [Text.words, toList_parameter, words_append_space,
      words_word (by simp) (isBlank_of_any (by decide)), words_word p.chars_ne_nil p.isBlank]
    simp [Identifier.chars]
  have hdots : dropStarts ['.', '.', '.'] p.text.length p.chars = p.chars := by
    have hnone : Chars.afterStart? ['.', '.', '.'] p.chars = none :=
      afterStart?_eq_none List.mem_cons_self (p.notMem (by decide))
    cases p.text.length with
    | zero => rfl
    | succ n => simp [dropStarts, hnone]
  have hne : p.chars.isEmpty = false := by simpa using p.chars_ne_nil
  rw [Identifier.chars] at hdots hne
  simp [parameterName?, hheader, hwords, hdots, hne]

theorem parameterNames_parameterList (params : List Identifier) :
    parameterNames (parameterList params) = params.map Identifier.text := by
  have hparts : ∀ part ∈ params.map fun p ↦ (parameter p).toList, IsArgument part := by
    intro part hpart
    obtain ⟨p, _, rfl⟩ := List.mem_map.mp hpart
    obtain ⟨c, rest, hcons, _⟩ := (spaced_parameter p).exists_cons
    refine isArgument_of_isArgumentChar (by simp [hcons]) (spaced_parameter p).trim_eq
      fun c hc ↦ ?_
    rcases mem_parameter hc with hc | rfl
    · exact (nameClasses hc).argument
    · decide
  have hsplit : splitArguments (parameterList params) = params.map parameter := by
    rw [splitArguments, splitArgumentChars, toList_parameterList,
      argumentsFrom_join hparts (by simp)]
    simp
  simp [parameterNames, hsplit, List.filterMap_map, parameterName?_parameter]

/-! ### Methods -/

theorem reverse_trimEnd_name (front : List Char) (name : Identifier) :
    (Chars.trimEnd (front ++ ' ' :: name.chars)).reverse =
      name.chars.reverse ++ ' ' :: front.reverse := by
  obtain ⟨c, rest, hrest⟩ : ∃ c rest, name.chars.reverse = c :: rest :=
    List.exists_cons_of_ne_nil (by simpa using name.chars_ne_nil)
  have hc : isBlank c = false :=
    name.isBlank c (List.mem_reverse.mp (hrest ▸ List.mem_cons_self))
  simp [Chars.trimEnd, Chars.dropEndWhile, hrest, hc]

theorem all_isPlain_signature (name : Identifier) (params : List Identifier) :
    (signature name params).toList.all isPlain = true := by
  refine List.all_eq_true.mpr fun c hc ↦ ?_
  exact isPlain_of_isSignatureSymbol (isSignatureSymbol_of_mem hc)

theorem breakCode?_signature (name : Identifier) (params : List Identifier) :
    breakCode? (· == '(') (signature name params).toList =
      some ("public void".toList ++ ' ' :: name.chars, '(',
        (parameterList params).toList ++ [')']) := by
  have hheader : (signature name params).toList = ("public void".toList ++ ' ' :: name.chars) ++
      '(' :: ((parameterList params).toList ++ [')']) := by
    rw [toList_signature]
    simp
  have hplain := all_isPlain_signature name params
  have hmodifiers : '(' ∉ "public void".toList := by simp
  rw [hheader] at hplain ⊢
  refine breakCode?_plain hplain (by decide) fun c hc ↦ ?_
  rw [List.mem_append, List.mem_cons] at hc
  rcases hc with hc | rfl | hc
  · exact beq_false_of_ne (ne_of_mem_of_not_mem hc hmodifiers)
  · decide
  · exact beq_false_of_ne (ne_of_mem_of_not_mem hc (name.notMem (by decide)))

theorem enclosed?_parameterList (params : List Identifier) :
    enclosed? '(' ')' ('(' :: ((parameterList params).toList ++ [')'])) =
      some ⟨(parameterList params).toList, []⟩ := by
  have hplain : (parameterList params).toList.all isPlain = true := by
    refine List.all_eq_true.mpr fun c hc ↦ ?_
    rcases mem_parameterList hc with hc | rfl | rfl
    · exact (nameClasses hc).plain
    · decide
    · decide
  have hbracket : ∀ c ∈ (parameterList params).toList, c ≠ '(' ∧ c ≠ ')' := by
    intro c hc
    constructor
    · rintro rfl
      exact absurd (mem_parameterList hc) (by decide)
    · rintro rfl
      exact absurd (mem_parameterList hc) (by decide)
  refine enclosed?_plain (by decide) ?_ (fun h ↦ (hbracket _ h).1 rfl)
    (fun h ↦ (hbracket _ h).2 rfl)
  have hopen : isPlain '(' = true := by decide
  have hclose : isPlain ')' = true := by decide
  rw [List.all_cons, List.all_append, hopen, hplain, List.all_cons, hclose]
  rfl

/-- The header of a method is read as that method. -/
theorem methodOf?_signature {name : Identifier} (params : List Identifier)
    (hname : isControlKeyword name.text = false) (body : String) (annotations : List AnnotationUse)
    (className : Option String) :
    methodOf? (signature name params) body annotations className =
      .ok (some { name := name.text, params := params.map Identifier.text, body, annotations,
                  isPublic := true, isConstructor := className == some name.text }) := by
  have hspaced := spaced_signature name params
  have hinitializer : Text.contains (signature name params) "=" = false := by
    refine contains_eq_false (c := '=') (by decide) fun h ↦ ?_
    exact absurd (isSignatureSymbol_of_mem h) (by decide)
  -- no word before a space ends as these two do
  have hclass : Text.contains (signature name params) "class " = false :=
    hspaced.contains_eq_false (c := 's') (by decide) ['c', 'l', 'a', 's']
  have hinterface : Text.contains (signature name params) "interface " = false :=
    hspaced.contains_eq_false (c := 'e') (by decide) ['i', 'n', 't', 'e', 'r', 'f', 'a', 'c']
  have hne : name.text.isEmpty = false := by
    simpa [Identifier.chars] using name.chars_ne_nil
  have hnameChars : ∀ c ∈ name.chars.reverse, isNameChar c = true := by
    intro c hc
    exact (nameClasses (name.isIdentifierChar c (List.mem_reverse.mp hc))).name
  have hspan := span_append hnameChars (c := ' ') (by decide) "public void".toList.reverse
  have hascii : Option.filter (fun c ↦ !isAscii c) (some ' ') = none := by decide
  have hpublic : "public" ∈ Text.words "public void " := by decide
  unfold methodOf?
  simp only [hinitializer, hclass, hinterface, breakCode?_signature, enclosed?_parameterList,
    reverse_trimEnd_name, hspan, List.head?_cons, hascii]
  simp [hname, hne, hpublic, Identifier.chars, parameterNames_parameterList]

end SuiteMigration.Java
