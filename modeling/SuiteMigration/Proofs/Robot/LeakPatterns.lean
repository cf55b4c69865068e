import Mathlib.Computability.Language
import SuiteMigration.Proofs.Java.TypeSearch
import SuiteMigration.Robot.Validation

/-!
Source syntax in a line, as languages. The tests for leftovers of source syntax read a text from
left to right and skip white space and words as far as they go. Each of them holds just of the texts
in which a word of its language occurs: at the start of the line, at the start of a word, or
anywhere.
-/

set_option autoImplicit false
set_option relaxedAutoImplicit false

namespace SuiteMigration.Robot

open SuiteMigration.Text SuiteMigration.Java

open scoped Computability

/-! ### Languages -/

section Languages

/-- The texts of a list. -/
def anyOf (texts : List String) : Language Char :=
  {cs | ∃ text ∈ texts, cs = text.toList}

/-- A single text. -/
def exactly (text : String) : Language Char :=
  anyOf [text]

/-- The characters of a class, as texts. -/
def oneOf (p : Char → Bool) : Language Char :=
  {cs | ∃ c, p c = true ∧ cs = [c]}

def manyOf (p : Char → Bool) : Language Char :=
  (oneOf p)∗

def someOf (p : Char → Bool) : Language Char :=
  oneOf p * manyOf p

variable {p : Char → Bool} {cs : List Char}

theorem mem_manyOf : cs ∈ manyOf p ↔ ∀ c ∈ cs, p c = true := by
  constructor
  · rintro ⟨parts, rfl, hparts⟩ c hc
    obtain ⟨part, hpart, hc⟩ := List.mem_flatten.mp hc
    obtain ⟨d, hd, rfl⟩ := hparts part hpart
    rwa [List.mem_singleton.mp hc]
  · intro h
    refine ⟨cs.map fun c ↦ [c], ?_, fun part hpart ↦ ?_⟩
    · rw [← List.flatMap_def, List.flatMap_singleton']
    · obtain ⟨c, hc, rfl⟩ := List.mem_map.mp hpart
      exact ⟨c, h c hc, rfl⟩

theorem mem_someOf : cs ∈ someOf p ↔ cs ≠ [] ∧ ∀ c ∈ cs, p c = true := by
  rw [someOf, Language.mem_mul]
  constructor
  · rintro ⟨_, ⟨c, hc, rfl⟩, rest, hrest, rfl⟩
    exact ⟨List.cons_ne_nil c rest, List.forall_mem_cons.mpr ⟨hc, mem_manyOf.mp hrest⟩⟩
  · rintro ⟨hne, h⟩
    obtain ⟨c, rest, rfl⟩ := List.exists_cons_of_ne_nil hne
    obtain ⟨hc, hrest⟩ := List.forall_mem_cons.mp h
    exact ⟨[c], ⟨c, hc, rfl⟩, rest, mem_manyOf.mpr hrest, rfl⟩

end Languages

/-! ### Texts that start with a word of a language -/

/-- A text that starts with a word of a language. -/
def Starts (l : Language Char) (cs : List Char) : Prop :=
  ∃ word ∈ l, word <+: cs

section Starts

variable {l m : Language Char} {cs : List Char}

theorem starts_mul :
    Starts (l * m) cs ↔ ∃ word rest, cs = word ++ rest ∧ word ∈ l ∧ Starts m rest := by
  constructor
  · rintro ⟨_, hword, behind, rfl⟩
    obtain ⟨first, hfirst, second, hsecond, rfl⟩ := Language.mem_mul.mp hword
    exact ⟨first, second ++ behind, List.append_assoc _ _ _, hfirst, second, hsecond,
      List.prefix_append _ _⟩
  · rintro ⟨first, _, rfl, hfirst, second, hsecond, behind, rfl⟩
    exact ⟨first ++ second, Language.append_mem_mul hfirst hsecond, behind,
      List.append_assoc _ _ _⟩

/-- What may be missing at the end does not matter. -/
theorem starts_mul_of_nil_mem (h : [] ∈ m) : Starts (l * m) cs ↔ Starts l cs := by
  rw [starts_mul]
  constructor
  · rintro ⟨word, rest, rfl, hword, -⟩
    exact ⟨word, hword, List.prefix_append _ _⟩
  · rintro ⟨word, hword, rest, rfl⟩
    exact ⟨word, rest, rfl, hword, [], h, List.nil_prefix⟩

theorem starts_oneOf {p : Char → Bool} : Starts (oneOf p) cs ↔ cs.head?.any p = true := by
  rw [Option.any_eq_true]
  constructor
  · rintro ⟨_, ⟨c, hc, rfl⟩, rest, rfl⟩
    exact ⟨c, rfl, hc⟩
  · rintro ⟨c, hhead, hc⟩
    obtain ⟨rest, rfl⟩ := List.head?_eq_some_iff.mp hhead
    exact ⟨[c], ⟨c, hc, rfl⟩, rest, rfl⟩

theorem nil_mem_manyOf (p : Char → Bool) : [] ∈ manyOf p :=
  Language.nil_mem_kstar _

theorem starts_someOf {p : Char → Bool} : Starts (someOf p) cs ↔ cs.head?.any p = true := by
  rw [someOf, starts_mul_of_nil_mem (nil_mem_manyOf p), starts_oneOf]

theorem starts_anyOf_mul {texts : List String} : Starts (anyOf texts * m) cs ↔
    ∃ text ∈ texts, ∃ rest, Chars.afterStart? text.toList cs = some rest ∧ Starts m rest := by
  rw [starts_mul]
  constructor
  · rintro ⟨_, rest, rfl, ⟨text, htext, rfl⟩, hrest⟩
    exact ⟨text, htext, rest, Chars.afterStart?_append _ _, hrest⟩
  · rintro ⟨text, htext, rest, hafter, hrest⟩
    exact ⟨_, rest, Chars.eq_append_of_afterStart? hafter, ⟨text, htext, rfl⟩, hrest⟩

/-- The words of a language start with characters that are not white space. -/
def StartsInked (m : Language Char) : Prop :=
  ∀ cs, Starts m cs → ∃ c ∈ cs.head?, isBlank c = false

theorem startsInked_mul {l : Language Char}
    (h : ∀ word ∈ l, ∃ c ∈ word.head?, isBlank c = false) (m : Language Char) :
    StartsInked (l * m) := by
  intro cs hstarts
  obtain ⟨word, rest, rfl, hword, -⟩ := starts_mul.mp hstarts
  obtain ⟨c, hhead, hc⟩ := h word hword
  refine ⟨c, ?_, hc⟩
  rw [List.head?_append, Option.mem_def.mp hhead]
  rfl

theorem startsInked_anyOf_mul {texts : List String}
    (h : ∀ text ∈ texts, text.toList.head?.any (fun c ↦ !isBlank c) = true) (m : Language Char) :
    StartsInked (anyOf texts * m) := by
  refine startsInked_mul (fun word hword ↦ ?_) m
  obtain ⟨text, htext, rfl⟩ := hword
  obtain ⟨c, hhead, hc⟩ := (Option.any_eq_true _ _).mp (h text htext)
  exact ⟨c, hhead, by simpa using hc⟩

/-- White space in front of other words can only be read as a whole. -/
theorem starts_someBlanks_mul (hm : StartsInked m) : Starts (someOf isBlank * m) cs ↔
    ∃ rest, skipBlanks? cs = some rest ∧ Starts m rest := by
  rw [starts_mul]
  constructor
  · rintro ⟨blanks, rest, rfl, hblanks, hrest⟩
    obtain ⟨c, hhead, hc⟩ := hm rest hrest
    obtain ⟨more, rfl⟩ := List.head?_eq_some_iff.mp hhead
    obtain ⟨hne, hall⟩ := mem_someOf.mp hblanks
    exact ⟨c :: more, skipBlanks?_append hne hall hc, hrest⟩
  · rintro ⟨rest, hskip, hrest⟩
    obtain ⟨blanks, rfl, hne, hall⟩ := skipBlanks?_eq_some hskip
    exact ⟨blanks, rest, rfl, mem_someOf.mpr ⟨hne, hall⟩, hrest⟩

theorem starts_manyBlanks_mul (hm : StartsInked m) :
    Starts (manyOf isBlank * m) cs ↔ Starts m (Chars.trimStart cs) := by
  rw [starts_mul]
  constructor
  · rintro ⟨blanks, rest, rfl, hblanks, hrest⟩
    obtain ⟨c, hhead, hc⟩ := hm rest hrest
    obtain ⟨more, rfl⟩ := List.head?_eq_some_iff.mp hhead
    rwa [Chars.trimStart, (Chars.span_append (mem_manyOf.mp hblanks) hc more).2]
  · intro hrest
    refine ⟨cs.takeWhile isBlank, Chars.trimStart cs, ?_, ?_, hrest⟩
    · rw [Chars.trimStart, List.takeWhile_append_dropWhile]
    · exact mem_manyOf.mpr fun c hc ↦ List.mem_takeWhile_imp hc

/-- Keywords and white space in front of other words. -/
theorem starts_keywords_mul {keywords : List String} (hm : StartsInked m) :
    Starts (anyOf keywords * (someOf isBlank * m)) cs ↔
      ∃ keyword ∈ keywords, ∃ rest, afterWord? keyword cs = some rest ∧ Starts m rest := by
  rw [starts_anyOf_mul]
  refine exists_congr fun keyword ↦ and_congr_right fun _ ↦ ?_
  simp only [starts_someBlanks_mul hm, afterWord?, Option.bind_eq_bind, Option.bind_eq_some_iff]
  constructor
  · rintro ⟨after, hafter, rest, hskip, hrest⟩
    exact ⟨rest, ⟨after, hafter, hskip⟩, hrest⟩
  · rintro ⟨rest, ⟨after, hafter, hskip⟩, hrest⟩
    exact ⟨after, hafter, rest, hskip, hrest⟩

theorem starts_keyword_mul {keyword : String} (hm : StartsInked m) :
    Starts (exactly keyword * someOf isBlank * m) cs ↔
      ∃ rest, afterWord? keyword cs = some rest ∧ Starts m rest := by
  rw [exactly, mul_assoc, starts_keywords_mul hm]
  simp only [List.mem_singleton, exists_eq_left]

end Starts

/-! ### Patterns -/

/-- Where a pattern may occur. -/
inductive Place where
  | lineStart
  | wordStart
  | anywhere

/-- Whether a pattern may occur behind a text. -/
def Place.Allows : Place → List Char → Prop
  | .lineStart, front => front = []
  | .wordStart, front => ∀ c ∈ front.getLast?, isWordChar c = false
  | .anywhere, _ => True

structure SourcePattern where
  place : Place
  words : Language Char

/-- A pattern occurs in a text. -/
def SourcePattern.OccursIn (p : SourcePattern) (cs : List Char) : Prop :=
  ∃ front word behind, cs = front ++ word ++ behind ∧ p.place.Allows front ∧ word ∈ p.words

theorem SourcePattern.occursIn_iff (p : SourcePattern) (cs : List Char) : p.OccursIn cs ↔
    ∃ front rest, cs = front ++ rest ∧ p.place.Allows front ∧ Starts p.words rest := by
  constructor
  · rintro ⟨front, word, behind, rfl, hplace, hword⟩
    exact ⟨front, word ++ behind, List.append_assoc _ _ _, hplace, word, hword,
      List.prefix_append _ _⟩
  · rintro ⟨front, _, rfl, hplace, word, hword, behind, rfl⟩
    exact ⟨front, word, behind, (List.append_assoc _ _ _).symm, hplace, hword⟩

theorem occursIn_lineStart_iff (l : Language Char) (cs : List Char) :
    (SourcePattern.mk .lineStart l).OccursIn cs ↔ Starts l cs := by
  rw [SourcePattern.occursIn_iff]
  constructor
  · rintro ⟨_, _, rfl, rfl, hstarts⟩
    exact hstarts
  · exact fun hstarts ↦ ⟨[], cs, rfl, rfl, hstarts⟩

/-- A search goes over all places of a text that are followed by a character. -/
theorem occursIn_eq_true_iff (recognise : Recogniser) (before : Option Char) (cs : List Char) :
    occursIn recognise before cs = true ↔ ∃ front c rest, cs = front ++ c :: rest ∧
      (recognise (front.getLast?.or before) (c :: rest)).isSome = true := by
  induction cs generalizing before with
  | nil => simp [occursIn]
  | cons c rest ih =>
    rw [occursIn, Bool.or_eq_true, ih]
    constructor
    · rintro (hhere | ⟨front, d, tail, rfl, hlater⟩)
      · exact ⟨[], c, rest, rfl, hhere⟩
      · refine ⟨c :: front, d, tail, rfl, ?_⟩
        cases front with
        | nil => exact hlater
        | cons e more => rwa [List.getLast?_cons_cons]
    · rintro ⟨front, d, tail, heq, hfound⟩
      cases front with
      | nil =>
        obtain ⟨rfl, rfl⟩ := List.cons.inj heq
        exact Or.inl hfound
      | cons e more =>
        obtain ⟨rfl, rfl⟩ := List.cons.inj heq
        refine Or.inr ⟨more, d, tail, rfl, ?_⟩
        cases more with
        | nil => exact hfound
        | cons f others => rwa [List.getLast?_cons_cons] at hfound

section Search

variable {l : Language Char} {holds : List Char → Bool}

theorem occursIn_anywhere_iff (h : ∀ cs, holds cs = true ↔ Starts l cs) (hnil : ¬ Starts l [])
    (cs : List Char) :
    occursIn (fun _ rest ↦ if holds rest then some 1 else none) none cs = true ↔
      (SourcePattern.mk .anywhere l).OccursIn cs := by
  rw [occursIn_eq_true_iff, SourcePattern.occursIn_iff]
  constructor
  · rintro ⟨front, c, rest, rfl, hfound⟩
    refine ⟨front, c :: rest, rfl, trivial, (h _).mp ?_⟩
    by_contra hno
    rw [if_neg hno] at hfound
    cases hfound
  · rintro ⟨front, rest, rfl, -, hstarts⟩
    cases rest with
    | nil => exact absurd hstarts hnil
    | cons c more =>
      refine ⟨front, c, more, rfl, ?_⟩
      rw [if_pos ((h _).mpr hstarts)]
      rfl

theorem atWordStart_iff (front : List Char) :
    atWordStart (front.getLast?.or none) = true ↔ Place.wordStart.Allows front := by
  rw [Option.or_none, Place.Allows]
  cases front.getLast? with
  | none => exact iff_of_true rfl nofun
  | some c => simp [atWordStart]

theorem occursIn_wordStart_iff (h : ∀ cs, holds cs = true ↔ Starts l cs) (hnil : ¬ Starts l [])
    (cs : List Char) : occursIn (wordStart holds) none cs = true ↔
      (SourcePattern.mk .wordStart l).OccursIn cs := by
  have hsome (before : Option Char) (rest : List Char) :
      (wordStart holds before rest).isSome = true ↔
        atWordStart before = true ∧ holds rest = true := by
    rw [wordStart, ← Bool.and_eq_true]
    split
    next hyes => exact iff_of_true rfl hyes
    next hno => exact iff_of_false nofun hno
  rw [occursIn_eq_true_iff, SourcePattern.occursIn_iff]
  constructor
  · rintro ⟨front, c, rest, rfl, hfound⟩
    obtain ⟨hplace, hholds⟩ := (hsome _ _).mp hfound
    exact ⟨front, c :: rest, rfl, (atWordStart_iff front).mp hplace, (h _).mp hholds⟩
  · rintro ⟨front, rest, rfl, hplace, hstarts⟩
    cases rest with
    | nil => exact absurd hstarts hnil
    | cons c more =>
      exact ⟨front, c, more, rfl,
        (hsome _ _).mpr ⟨(atWordStart_iff front).mpr hplace, (h _).mpr hstarts⟩⟩

end Search

/-! ### Keywords of a declaration -/

theorem isBlank_of_isWordChar {c : Char} (h : isWordChar c = true) : isBlank c = false := by
  by_contra hblank
  rw [Bool.not_eq_false] at hblank
  have hdecimal : isDecimal c = false :=
    Table.contains_eq_false_of_avoids (by decide +kernel) hblank
  have hconnector : Table.contains Table.connector c.toNat = false :=
    Table.contains_eq_false_of_avoids (by decide +kernel) hblank
  rw [isWordChar, isAlphabetic_of_isBlank hblank, hdecimal, hconnector] at h
  cases h

theorem isBlank_of_isUpperAscii {c : Char} (h : isUpperAscii c = true) : isBlank c = false := by
  rw [isUpperAscii, Bool.and_eq_true, decide_eq_true_eq, decide_eq_true_eq] at h
  have hfirst : 65 ≤ c.toNat := h.1
  have hlast : c.toNat ≤ 90 := h.2
  have hletter : Table.contains [⟨0x41, 0x5A, 1⟩] c.toNat = true := by
    simp [Table.contains, Table.Run.contains, hfirst, hlast, Nat.mod_one]
  exact Table.contains_eq_false_of_avoids (by decide +kernel) hletter

/-- A keyword is read as the first word of a text, together with the white space behind it. -/
theorem eq_of_afterWord? {keyword : String} (hkeyword : ∀ c ∈ keyword.toList, isBlank c = false)
    {cs rest : List Char} (h : afterWord? keyword cs = some rest) :
    keyword.toList = cs.takeWhile (fun c ↦ !isBlank c) ∧
      rest = Chars.trimStart (cs.dropWhile fun c ↦ !isBlank c) := by
  obtain ⟨after, hafter, hskip⟩ := Option.bind_eq_some_iff.mp h
  unfold skipBlanks? at hskip
  split at hskip
  next c more =>
    split at hskip
    next hc =>
      have hvisible : ∀ d ∈ keyword.toList, (!isBlank d) = true := fun d hd ↦ by
        rw [hkeyword d hd]
        rfl
      obtain ⟨htake, hdrop⟩ := Chars.span_append hvisible
        (show (!isBlank c) = false by rw [hc]; rfl) more
      rw [Chars.eq_append_of_afterStart? hafter, htake, hdrop, Chars.trimStart,
        List.dropWhile_cons_of_pos hc]
      exact ⟨rfl, (Option.some.inj hskip).symm⟩
    next => cases hskip
  next => cases hskip

theorem starts_keyword_iff {keyword : String} {p : Char → Bool} {m : Language Char}
    (hp : ∀ c, p c = true → isBlank c = false) (hm : ∀ cs, Starts m cs ↔ cs.head?.any p = true)
    (cs : List Char) : Starts (exactly keyword * someOf isBlank * m) cs ↔
      ((afterWord? keyword cs).bind List.head?).any p = true := by
  have hinked : StartsInked m := by
    intro rest hstarts
    obtain ⟨c, hhead, hc⟩ := Option.any_eq_true _ _ |>.mp ((hm rest).mp hstarts)
    exact ⟨c, hhead, hp c hc⟩
  rw [starts_keyword_mul hinked]
  cases afterWord? keyword cs with
  | none => simp
  | some rest => simp [hm]

theorem isBlank_of_isPathChar {c : Char}
    (h : (isWordChar c || c == '.' || c == '*') = true) : isBlank c = false := by
  obtain h | h := Bool.or_eq_true_iff.mp h
  · obtain h | h := Bool.or_eq_true_iff.mp h
    · exact isBlank_of_isWordChar h
    · rw [beq_iff_eq.mp h]
      decide
  · rw [beq_iff_eq.mp h]
    decide

/-! ### Modifiers of a class -/

def classModifiers : List String :=
  ["public", "private", "protected", "final", "abstract", "static"]

theorem classModifiers_visible :
    ∀ modifier ∈ classModifiers, ∀ c ∈ modifier.toList, isBlank c = false := by
  have hnone : ∀ modifier ∈ classModifiers, modifier.toList.any isBlank = false := by decide
  exact fun modifier hmem ↦ Chars.isBlank_of_any (hnone modifier hmem)

section Modifiers

variable {m : Language Char}

/-- Modifiers in front of a language are none, or one and then others. -/
theorem starts_modifiers_mul_iff (cs : List Char) :
    Starts ((anyOf classModifiers * someOf isBlank)∗ * m) cs ↔
      Starts m cs ∨ Starts (anyOf classModifiers *
        (someOf isBlank * ((anyOf classModifiers * someOf isBlank)∗ * m))) cs := by
  conv_lhs => rw [← Language.one_add_self_mul_kstar_eq_kstar, add_mul, one_mul, mul_assoc,
    mul_assoc]
  constructor
  · rintro ⟨word, hword | hword, hprefix⟩
    · exact Or.inl ⟨word, hword, hprefix⟩
    · exact Or.inr ⟨word, hword, hprefix⟩
  · rintro (⟨word, hword, hprefix⟩ | ⟨word, hword, hprefix⟩)
    · exact ⟨word, Or.inl hword, hprefix⟩
    · exact ⟨word, Or.inr hword, hprefix⟩

theorem startsInked_modifiers_mul (hm : StartsInked m) :
    StartsInked ((anyOf classModifiers * someOf isBlank)∗ * m) := by
  have hmodifiers : ∀ modifier ∈ classModifiers,
      modifier.toList.head?.any (fun c ↦ !isBlank c) = true := by decide
  intro cs hstarts
  obtain h | h := (starts_modifiers_mul_iff cs).mp hstarts
  · exact hm cs h
  · exact startsInked_anyOf_mul hmodifiers _ cs h

theorem dropModifiers_succ (fuel : Nat) (cs : List Char) :
    dropModifiers (fuel + 1) cs =
      ((classModifiers.findSome? fun word ↦ afterWord? word cs).map (dropModifiers fuel)).getD
        cs := by
  rw [dropModifiers, classModifiers]
  cases List.findSome? (fun word ↦ afterWord? word cs) _ <;> rfl

/-- The modifiers of a class are dropped one by one; what is left starts with no modifier, so
nothing but a word of the language can start there. -/
theorem starts_modifiers_mul (hm : StartsInked m)
    (hother : ∀ cs, Starts m cs → ∀ modifier ∈ classModifiers, afterWord? modifier cs = none)
    {fuel : Nat} {cs : List Char} (hfuel : cs.length ≤ fuel) :
    Starts ((anyOf classModifiers * someOf isBlank)∗ * m) cs ↔
      Starts m (dropModifiers fuel cs) := by
  induction fuel generalizing cs with
  | zero =>
    have hnil : cs = [] := List.length_eq_zero_iff.mp (Nat.le_zero.mp hfuel)
    rw [hnil]
    refine iff_of_false (fun h ↦ ?_) (fun h ↦ ?_)
    · obtain ⟨_, hhead, -⟩ := startsInked_modifiers_mul hm [] h
      cases hhead
    · obtain ⟨_, hhead, -⟩ := hm [] h
      cases hhead
  | succ fuel ih =>
    rw [starts_modifiers_mul_iff, starts_keywords_mul (startsInked_modifiers_mul hm),
      dropModifiers_succ]
    cases hfound : classModifiers.findSome? fun word ↦ afterWord? word cs with
    | some rest =>
      obtain ⟨front, modifier, back, hsplit, hrest, -⟩ := List.findSome?_eq_some_iff.mp hfound
      have hmem : modifier ∈ classModifiers :=
        hsplit ▸ List.mem_append_right _ List.mem_cons_self
      have hlength : rest.length ≤ fuel := by
        obtain ⟨after, hafter, hskip⟩ := Option.bind_eq_some_iff.mp hrest
        obtain ⟨blanks, hblanks, hne, -⟩ := skipBlanks?_eq_some hskip
        have hpos := List.length_pos_iff.mpr hne
        rw [Chars.eq_append_of_afterStart? hafter, hblanks, List.length_append,
          List.length_append] at hfuel
        omega
      rw [Option.map_some, Option.getD_some, ← ih hlength]
      constructor
      · rintro (hstarts | ⟨other, hotherMem, otherRest, hread, hstarts⟩)
        · rw [hother cs hstarts modifier hmem] at hrest
          cases hrest
        · -- a text has one first word, so every modifier leaves the same rest
          rwa [(eq_of_afterWord? (classModifiers_visible modifier hmem) hrest).2,
            ← (eq_of_afterWord? (classModifiers_visible other hotherMem) hread).2]
      · exact fun hstarts ↦ Or.inr ⟨modifier, hmem, rest, hrest, hstarts⟩
    | none =>
      rw [Option.map_none, Option.getD_none]
      refine or_iff_left ?_
      rintro ⟨modifier, hmem, rest, hrest, -⟩
      rw [List.findSome?_eq_none_iff.mp hfound modifier hmem] at hrest
      cases hrest

end Modifiers

/-! ### The tests and their patterns -/

/-- The source syntax that must not be left in a file, by kind. -/
def leakPatterns : List (String × List SourcePattern) :=
  [("import statement",
    [⟨.lineStart, exactly "import" * someOf isBlank *
      (someOf fun c ↦ isWordChar c || c == '.' || c == '*') * manyOf isBlank *
      (1 + exactly ";")⟩]),
   ("package declaration",
    [⟨.lineStart, exactly "package" * someOf isBlank *
      (someOf fun c ↦ isWordChar c || c == '.') * manyOf isBlank * (1 + exactly ";")⟩]),
   ("class declaration",
    [⟨.lineStart, (anyOf classModifiers * someOf isBlank)∗ * (exactly "class" * someOf isBlank *
      oneOf isUpperAscii) * manyOf isWordChar⟩,
     ⟨.wordStart, exactly "public" * someOf isBlank *
      (exactly "class" * someOf isBlank * someOf isWordChar)⟩]),
   ("element annotation", [⟨.anywhere, exactly "@FindBy" * manyOf isBlank * exactly "("⟩]),
   ("typed element declaration",
    [⟨.wordStart, exactly "WebElement" * someOf isBlank * someOf isWordChar⟩]),
   ("step annotation",
    [⟨.anywhere, anyOf ["@Given", "@When", "@Then", "@And", "@But"] * manyOf isBlank *
      exactly "("⟩]),
   ("driver call",
    [⟨.wordStart, exactly "driver.findElement" * manyOf isBlank * exactly "("⟩])]

section Tests

theorem nil_mem_one_add (l : Language Char) : [] ∈ 1 + l :=
  (Language.mem_add _ _ _).mpr (Or.inl Language.nil_mem_one)

theorem startsImport_iff (cs : List Char) : startsImport cs = true ↔
    (SourcePattern.mk .lineStart (exactly "import" * someOf isBlank *
      (someOf fun c ↦ isWordChar c || c == '.' || c == '*') * manyOf isBlank *
      (1 + exactly ";"))).OccursIn cs := by
  rw [occursIn_lineStart_iff, starts_mul_of_nil_mem (nil_mem_one_add _),
    starts_mul_of_nil_mem (nil_mem_manyOf _),
    starts_keyword_iff (fun _ ↦ isBlank_of_isPathChar) fun _ ↦ starts_someOf]
  rfl

theorem startsPackage_iff (cs : List Char) : startsPackage cs = true ↔
    (SourcePattern.mk .lineStart (exactly "package" * someOf isBlank *
      (someOf fun c ↦ isWordChar c || c == '.') * manyOf isBlank *
      (1 + exactly ";"))).OccursIn cs := by
  rw [occursIn_lineStart_iff, starts_mul_of_nil_mem (nil_mem_one_add _),
    starts_mul_of_nil_mem (nil_mem_manyOf _),
    starts_keyword_iff (fun c hc ↦ isBlank_of_isPathChar (by rw [hc]; rfl))
      fun _ ↦ starts_someOf]
  rfl

theorem startsClass_iff (cs : List Char) : startsClass cs = true ↔
    (SourcePattern.mk .lineStart ((anyOf classModifiers * someOf isBlank)∗ *
      (exactly "class" * someOf isBlank * oneOf isUpperAscii) * manyOf isWordChar)).OccursIn
      cs := by
  have hclass (rest : List Char) :
      Starts (exactly "class" * someOf isBlank * oneOf isUpperAscii) rest ↔
        ((afterWord? "class" rest).bind List.head?).any isUpperAscii = true :=
    starts_keyword_iff (fun _ ↦ isBlank_of_isUpperAscii) (fun _ ↦ starts_oneOf) rest
  have hinked : StartsInked (exactly "class" * someOf isBlank * oneOf isUpperAscii) := by
    rw [mul_assoc]
    exact startsInked_anyOf_mul (by decide) _
  have hother : ∀ rest, Starts (exactly "class" * someOf isBlank * oneOf isUpperAscii) rest →
      ∀ modifier ∈ classModifiers, afterWord? modifier rest = none := by
    intro rest hstarts modifier hmem
    by_contra hread
    obtain ⟨after, hread⟩ := Option.ne_none_iff_exists'.mp hread
    obtain ⟨other, hword⟩ : ∃ other, afterWord? "class" rest = some other := by
      cases hword : afterWord? "class" rest with
      | none =>
        rw [hclass, hword] at hstarts
        cases hstarts
      | some other => exact ⟨other, rfl⟩
    have hsame : modifier.toList = "class".toList :=
      (eq_of_afterWord? (classModifiers_visible modifier hmem) hread).1.trans
        (eq_of_afterWord? (Chars.isBlank_of_any (by decide)) hword).1.symm
    exact absurd hsame ((by decide : ∀ word ∈ classModifiers, word.toList ≠ "class".toList)
      modifier hmem)
  rw [occursIn_lineStart_iff, starts_mul_of_nil_mem (nil_mem_manyOf _),
    starts_modifiers_mul hinked hother le_rfl, hclass]
  rfl

theorem hasPublicClass_iff (cs : List Char) : hasPublicClass cs = true ↔
    (SourcePattern.mk .wordStart (exactly "public" * someOf isBlank *
      (exactly "class" * someOf isBlank * someOf isWordChar))).OccursIn cs := by
  have hinked : StartsInked (exactly "class" * someOf isBlank * someOf isWordChar) := by
    rw [mul_assoc]
    exact startsInked_anyOf_mul (by decide) _
  refine occursIn_wordStart_iff (fun rest ↦ ?_) (fun h ↦ ?_) cs
  · rw [starts_keyword_mul hinked]
    cases afterWord? "public" rest with
    | none => simp
    | some after =>
      simp [starts_keyword_iff (fun _ ↦ isBlank_of_isWordChar) fun _ ↦ starts_someOf]
  · obtain ⟨_, hread, -⟩ := (starts_keyword_mul hinked).mp h
    cases hread

theorem hasTypedElement_iff (cs : List Char) : hasTypedElement cs = true ↔
    (SourcePattern.mk .wordStart
      (exactly "WebElement" * someOf isBlank * someOf isWordChar)).OccursIn cs := by
  have hword (rest : List Char) :
      Starts (exactly "WebElement" * someOf isBlank * someOf isWordChar) rest ↔
        ((afterWord? "WebElement" rest).bind List.head?).any isWordChar = true :=
    starts_keyword_iff (fun _ ↦ isBlank_of_isWordChar) (fun _ ↦ starts_someOf) rest
  refine occursIn_wordStart_iff (fun rest ↦ (hword rest).symm) (fun h ↦ ?_) cs
  cases (hword []).mp h

theorem starts_parenthesis_iff (cs : List Char) :
    Starts (exactly "(") cs ↔ cs.head? = some '(' := by
  constructor
  · rintro ⟨_, ⟨text, htext, rfl⟩, rest, rfl⟩
    rw [List.mem_singleton.mp htext]
    rfl
  · intro hhead
    obtain ⟨rest, rfl⟩ := List.head?_eq_some_iff.mp hhead
    exact ⟨['('], ⟨"(", List.mem_cons_self, rfl⟩, rest, rfl⟩

/-- A call starts with one of several names, white space and a parenthesis. -/
theorem starts_call_iff (names : List String) (cs : List Char) :
    (names.any fun name ↦ opensCall name cs) = true ↔
      Starts (anyOf names * manyOf isBlank * exactly "(") cs := by
  have hinked : StartsInked (exactly "(") := by
    intro rest hstarts
    exact ⟨'(', (starts_parenthesis_iff rest).mp hstarts, by decide⟩
  rw [mul_assoc, starts_anyOf_mul, List.any_eq_true]
  refine exists_congr fun name ↦ and_congr_right fun _ ↦ ?_
  rw [opensCall]
  simp only [starts_manyBlanks_mul hinked, starts_parenthesis_iff]
  cases Chars.afterStart? name.toList cs with
  | none => simp
  | some rest => simp

theorem not_starts_call_nil {names : List String} (h : ∀ name ∈ names, name.toList ≠ []) :
    ¬ Starts (anyOf names * manyOf isBlank * exactly "(") [] := by
  rw [mul_assoc, starts_anyOf_mul]
  rintro ⟨name, hmem, rest, hafter, -⟩
  obtain ⟨c, more, hname⟩ := List.exists_cons_of_ne_nil (h name hmem)
  rw [hname] at hafter
  cases hafter

theorem opensCall_iff (name : String) (cs : List Char) : opensCall name cs = true ↔
    Starts (exactly name * manyOf isBlank * exactly "(") cs := by
  have hcall := starts_call_iff [name] cs
  rwa [List.any_cons, List.any_nil, Bool.or_false] at hcall

theorem hasElementAnnotation_iff (cs : List Char) : hasElementAnnotation cs = true ↔
    (SourcePattern.mk .anywhere (exactly "@FindBy" * manyOf isBlank * exactly "(")).OccursIn cs :=
  occursIn_anywhere_iff (opensCall_iff "@FindBy") (not_starts_call_nil (by decide)) cs

theorem hasStepAnnotations_iff (cs : List Char) : hasStepAnnotations (String.ofList cs) = true ↔
    (SourcePattern.mk .anywhere (anyOf ["@Given", "@When", "@Then", "@And", "@But"] *
      manyOf isBlank * exactly "(")).OccursIn cs := by
  rw [hasStepAnnotations, String.toList_ofList]
  exact occursIn_anywhere_iff (starts_call_iff _) (not_starts_call_nil (by decide)) cs

theorem hasDriverCall_iff (cs : List Char) : hasDriverCall cs = true ↔
    (SourcePattern.mk .wordStart
      (exactly "driver.findElement" * manyOf isBlank * exactly "(")).OccursIn cs :=
  occursIn_wordStart_iff (opensCall_iff "driver.findElement") (not_starts_call_nil (by decide)) cs

end Tests

/-- Every test is the search for its patterns, under the name of its kind. -/
theorem leakPatterns_leaks : List.Forall₂ (fun pattern leak ↦ pattern.1 = leak.1 ∧
    ∀ cs, leak.2 cs = true ↔ ∃ p ∈ pattern.2, p.OccursIn cs) leakPatterns leaks := by
  have hone {test : Bool} {pattern : SourcePattern} {cs : List Char}
      (h : test = true ↔ pattern.OccursIn cs) :
      test = true ↔ ∃ p ∈ [pattern], p.OccursIn cs := by
    rw [h]
    simp only [List.mem_singleton, exists_eq_left]
  refine .cons ⟨rfl, fun cs ↦ hone (startsImport_iff cs)⟩ <|
    .cons ⟨rfl, fun cs ↦ hone (startsPackage_iff cs)⟩ <| .cons ⟨rfl, fun cs ↦ ?_⟩ <|
    .cons ⟨rfl, fun cs ↦ hone (hasElementAnnotation_iff cs)⟩ <|
    .cons ⟨rfl, fun cs ↦ hone (hasTypedElement_iff cs)⟩ <|
    .cons ⟨rfl, fun cs ↦ hone (hasStepAnnotations_iff cs)⟩ <|
    .cons ⟨rfl, fun cs ↦ hone (hasDriverCall_iff cs)⟩ .nil
  rw [Bool.or_eq_true, startsClass_iff, hasPublicClass_iff]
  simp only [List.mem_cons, List.not_mem_nil, or_false, exists_eq_or_imp, exists_eq_left]

/-- A row is reported as a leftover just if some pattern occurs in it. -/
theorem leak?_isSome_iff (line : String) : (leak? line).isSome = true ↔
    ∃ entry ∈ leakPatterns, ∃ p ∈ entry.2, p.OccursIn (Chars.trim line.toList) := by
  rw [leak?, Option.isSome_map, List.find?_isSome]
  have hmatches := leakPatterns_leaks
  generalize leakPatterns = patterns at hmatches ⊢
  generalize leaks = tests at hmatches ⊢
  induction hmatches with
  | nil => simp
  | cons hmatch _ ih =>
    simp only [List.mem_cons, exists_eq_or_imp]
    exact or_congr (hmatch.2 _) ih

end SuiteMigration.Robot
