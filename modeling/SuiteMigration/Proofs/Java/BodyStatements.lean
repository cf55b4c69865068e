import Mathlib.Data.List.Forall2
import SuiteMigration.Proofs.Java.CallChain
import SuiteMigration.Proofs.Java.Statement
import SuiteMigration.Proofs.Java.Uncommented
import SuiteMigration.Proofs.Text.Words

/-!
What the removal of comments keeps, and the statements of a method body. The text that is left
has the code of the text before, white space apart, and the same literals in the same order; so a
second removal finds nothing to remove. Statements stand in the order of their text, each from a
character of the body on, and comments have no part in them: without its comments a body has the
same statements, up to the white space that the comments leave behind. Text blocks are left aside
there, because the reading for statements knows no escapes in them, and so it ends some of them too
early.
-/

set_option autoImplicit false
set_option relaxedAutoImplicit false

namespace SuiteMigration.Java

/-! ### Code -/

/-- A byte that is ASCII white space. -/
def isBlankByte (byte : UInt8) : Bool :=
  [0x20, 0x09, 0x0A, 0x0C, 0x0D].contains byte

/-- The bytes of the code that are not white space, in order. -/
def solidCode (text : String) : List UInt8 :=
  ((codeBytes text 0).map Prod.snd).filter fun byte ↦ !isBlankByte byte

/-- The bytes that a mark adds to the code. -/
def Mark.solidCode (mark : Mark) : List UInt8 :=
  if mark.kind == .code then (String.utf8EncodeChar mark.char).filter fun byte ↦ !isBlankByte byte
  else []

theorem filter_codeBytesFrom (offset : Nat) (ms : List Mark) :
    ((codeBytesFrom offset ms).map Prod.snd).filter (fun byte ↦ !isBlankByte byte) =
      ms.flatMap Mark.solidCode := by
  induction ms generalizing offset with
  | nil => rfl
  | cons mark rest ih =>
    rw [codeBytesFrom, List.flatMap_cons, Mark.solidCode, ← ih (offset + mark.char.utf8Size)]
    split
    · have hbytes : ((String.utf8EncodeChar mark.char).mapIdx
          fun i byte ↦ (offset + i, byte)).map Prod.snd = String.utf8EncodeChar mark.char := by
        apply List.ext_getElem <;> simp
      rw [List.map_append, List.filter_append, hbytes]
    · rfl

theorem solidCode_eq (text : String) :
    solidCode text = (marks text.toList).flatMap Mark.solidCode := by
  rw [solidCode, codeBytes_zero, filter_codeBytesFrom]

/-- What a comment leaves behind is white space. -/
theorem flatMap_solidCode_uncommented (ms : List Mark) :
    (uncommented ms).flatMap Mark.solidCode = ms.flatMap Mark.solidCode := by
  induction ms with
  | nil => rfl
  | cons mark rest ih =>
    rw [uncommented_cons, List.flatMap_append, List.flatMap_cons, ih]
    obtain ⟨c, kind⟩ := mark
    cases kind with
    | code | literal => exact congrArg (· ++ _) (List.append_nil _)
    | comment | lineEnd | blockEnd => rfl

/-! ### Literals -/

/-- Puts characters in front of the first of some literals. -/
def extendFirst (front : List Char) : List (List Char) → List (List Char)
  | [] => [front]
  | first :: others => (front ++ first) :: others

/-- The literals of a text that starts in the given region, with their quotes. In a literal the
first of them is what is left of that literal. -/
def literalsFrom : Region → List Char → List (List Char)
  | .code, [] => []
  | .lineComment, [] => []
  | .blockComment, [] => []
  | _, [] => [[]]
  | .code, '/' :: '/' :: rest => literalsFrom .lineComment rest
  | .code, '/' :: '*' :: rest => literalsFrom .blockComment rest
  | .code, '"' :: '"' :: '"' :: rest => extendFirst ['"', '"', '"'] (literalsFrom .textBlock rest)
  | .code, c :: rest =>
      if c == '"' then extendFirst [c] (literalsFrom .string rest)
      else if c == '\x27' then extendFirst [c] (literalsFrom .character rest)
      else literalsFrom .code rest
  | .string, '\\' :: c :: rest => extendFirst ['\\', c] (literalsFrom .string rest)
  | .string, c :: rest =>
      if c == '"' || c == '\n' then [c] :: literalsFrom .code rest
      else extendFirst [c] (literalsFrom .string rest)
  | .character, '\\' :: c :: rest => extendFirst ['\\', c] (literalsFrom .character rest)
  | .character, c :: rest =>
      if c == '\x27' || c == '\n' then [c] :: literalsFrom .code rest
      else extendFirst [c] (literalsFrom .character rest)
  | .textBlock, '"' :: '"' :: '"' :: rest => ['"', '"', '"'] :: literalsFrom .code rest
  | .textBlock, '\\' :: c :: rest => extendFirst ['\\', c] (literalsFrom .textBlock rest)
  | .textBlock, c :: rest => extendFirst [c] (literalsFrom .textBlock rest)
  | .lineComment, c :: rest =>
      if c == '\n' then literalsFrom .code rest else literalsFrom .lineComment rest
  | .blockComment, '*' :: '/' :: rest => literalsFrom .code rest
  | .blockComment, _ :: rest => literalsFrom .blockComment rest


/-- The string literals, character literals and text blocks of a text, in order. -/
def literals (text : String) : List String :=
  (literalsFrom .code text.toList).map String.ofList

theorem flatten_extendFirst (front : List Char) (found : List (List Char)) :
    (extendFirst front found).flatten = front ++ found.flatten := by
  cases found with
  | nil => simp [extendFirst]
  | cons first others => simp [extendFirst]

/-- The literals are made of the characters that are marked as literal. -/
theorem flatten_literalsFrom (region : Region) (cs : List Char) :
    (literalsFrom region cs).flatten =
      textOf ((marksFrom true region cs).filter (·.kind == .literal)) := by
  fun_induction literalsFrom region cs <;> simp_all [marksFrom, flatten_extendFirst, textOf]

section Before

variable {c : Char} {rest tail : List Char} (h : Continues rest tail)

include h

/-- Code that opens no comment and no text block does not do so before another text. -/
theorem literalsFrom_code_before (hline : ∀ more, c = '/' → rest = '/' :: more → False)
    (hblock : ∀ more, c = '/' → rest = '*' :: more → False)
    (htriple : ∀ more, c = '"' → rest = '"' :: '"' :: more → False) :
    literalsFrom .code (c :: tail) =
      if c == '"' then extendFirst [c] (literalsFrom .string tail)
      else if c == '\x27' then extendFirst [c] (literalsFrom .character tail)
      else literalsFrom .code tail := by
  rw [literalsFrom]
  · exact fun more hc ↦ h.slash (hline · hc)
  · exact fun more hc ↦ h.star (hblock · hc)
  · exact fun more hc ↦ h.quotes (htriple · hc)

theorem literalsFrom_string_before (hescape : ∀ d more, c = '\\' → rest = d :: more → False) :
    literalsFrom .string (c :: tail) =
      if c == '"' || c == '\n' then [c] :: literalsFrom .code tail
      else extendFirst [c] (literalsFrom .string tail) := by
  rw [literalsFrom]
  exact fun d more hc ↦ h.nil (hescape · · hc) d

theorem literalsFrom_character_before (hescape : ∀ d more, c = '\\' → rest = d :: more → False) :
    literalsFrom .character (c :: tail) =
      if c == '\x27' || c == '\n' then [c] :: literalsFrom .code tail
      else extendFirst [c] (literalsFrom .character tail) := by
  rw [literalsFrom]
  exact fun d more hc ↦ h.nil (hescape · · hc) d

theorem literalsFrom_textBlock_before
    (htriple : ∀ more, c = '"' → rest = '"' :: '"' :: more → False)
    (hescape : ∀ d more, c = '\\' → rest = d :: more → False) :
    literalsFrom .textBlock (c :: tail) = extendFirst [c] (literalsFrom .textBlock tail) := by
  rw [literalsFrom]
  · exact fun more hc ↦ h.quotes (htriple · hc)
  · exact fun d more hc ↦ h.nil (hescape · · hc) d

end Before

/-- The literals of a text without its comments. -/
theorem literalsFrom_uncommented (region : Region) (cs : List Char) :
    literalsFrom region.outside (textOf (uncommented (marksFrom true region cs))) =
      literalsFrom region cs := by
  -- the text that is left goes on with a sequence only if the text did, so both are read alike
  fun_induction literalsFrom region cs with
  | case1 => rfl
  | case2 => rfl
  | case3 => rfl
  | case4 region hcode hline hblock => cases region <;> first | rfl | contradiction
  | case5 rest ih => exact ih
  | case6 rest ih => exact ih
  | case7 rest ih => exact congrArg (extendFirst ['"', '"', '"']) ih
  | case8 c rest hline hblock htriple hquote ih =>
    have htail := continues_uncommented .string rest
    rw [marksFrom_code_cons true hline hblock htriple, if_pos hquote]
    exact ((literalsFrom_code_before htail hline hblock htriple).trans (if_pos hquote)).trans
      (congrArg (extendFirst [c]) ih)
  | case9 c rest hline hblock htriple hquote hcharacter ih =>
    have htail := continues_uncommented .character rest
    rw [marksFrom_code_cons true hline hblock htriple, if_neg hquote, if_pos hcharacter]
    exact ((literalsFrom_code_before htail hline hblock htriple).trans
      ((if_neg hquote).trans (if_pos hcharacter))).trans (congrArg (extendFirst [c]) ih)
  | case10 c rest hline hblock htriple hquote hcharacter ih =>
    have htail := continues_uncommented .code rest
    rw [marksFrom_code_cons true hline hblock htriple, if_neg hquote, if_neg hcharacter]
    exact ((literalsFrom_code_before htail hline hblock htriple).trans
      ((if_neg hquote).trans (if_neg hcharacter))).trans ih
  | case11 c rest ih => exact congrArg (extendFirst ['\\', c]) ih
  | case12 c rest hescape hends ih =>
    have htail := continues_uncommented .code rest
    rw [marksFrom, if_pos hends]
    · exact ((literalsFrom_string_before htail hescape).trans (if_pos hends)).trans
        (congrArg ([c] :: ·) ih)
    · exact hescape
  | case13 c rest hescape hends ih =>
    have htail := continues_uncommented .string rest
    rw [marksFrom, if_neg hends]
    · exact ((literalsFrom_string_before htail hescape).trans (if_neg hends)).trans
        (congrArg (extendFirst [c]) ih)
    · exact hescape
  | case14 c rest ih => exact congrArg (extendFirst ['\\', c]) ih
  | case15 c rest hescape hends ih =>
    have htail := continues_uncommented .code rest
    rw [marksFrom, if_pos hends]
    · exact ((literalsFrom_character_before htail hescape).trans (if_pos hends)).trans
        (congrArg ([c] :: ·) ih)
    · exact hescape
  | case16 c rest hescape hends ih =>
    have htail := continues_uncommented .character rest
    rw [marksFrom, if_neg hends]
    · exact ((literalsFrom_character_before htail hescape).trans (if_neg hends)).trans
        (congrArg (extendFirst [c]) ih)
    · exact hescape
  | case17 rest ih => exact congrArg (['"', '"', '"'] :: ·) ih
  | case18 c rest ih => exact congrArg (extendFirst ['\\', c]) ih
  | case19 c rest htriple hescape ih =>
    have htail := continues_uncommented .textBlock rest
    rw [marksFrom]
    · exact (literalsFrom_textBlock_before htail htriple hescape).trans
        (congrArg (extendFirst [c]) ih)
    · exact htriple
    · exact hescape
  | case20 c rest hfeed ih =>
    rw [marksFrom, if_pos hfeed]
    exact ih
  | case21 c rest hfeed ih =>
    rw [marksFrom, if_neg hfeed]
    exact ih
  | case22 rest ih => exact ih
  | case23 c rest hclose ih =>
    rw [marksFrom]
    · exact ih
    · exact hclose

/-! ### Texts without comments -/

theorem toList_stripComments (text : String) :
    (stripComments text).toList = textOf (uncommented (marks text.toList)) := by
  rw [stripComments, String.toList_ofList, stripCommentChars, textOf_uncommented]

theorem marks_stripComments (text : String) :
    marks (stripComments text).toList = uncommented (marks text.toList) := by
  rw [toList_stripComments]
  exact (own_marks text.toList).uncommented

/-- Removing comments keeps the code of a text, white space apart, and every literal, which are the
characters that the reader marks as such; and removing them once more changes nothing. -/
theorem stripComments_keeps_code (text : String) :
    solidCode (stripComments text) = solidCode text ∧
      literals (stripComments text) = literals text ∧
      (literals text).flatMap String.toList =
        textOf ((marks text.toList).filter (·.kind == .literal)) ∧
      stripComments (stripComments text) = stripComments text := by
  refine ⟨?_, ?_, ?_, ?_⟩
  · rw [solidCode_eq, solidCode_eq, marks_stripComments, flatMap_solidCode_uncommented]
  · rw [literals, literals, toList_stripComments]
    exact congrArg _ (literalsFrom_uncommented .code text.toList)
  · refine Eq.trans ?_ (flatten_literalsFrom .code text.toList)
    simp only [literals, List.flatMap_map, String.toList_ofList, List.flatMap_id']
  · rw [← String.toList_inj, toList_stripComments, marks_stripComments, uncommented_uncommented,
      ← toList_stripComments]

example : literals "f(\"//\" /* \"x\" */ + '\"', \"\"\"a \"b\" \"\"\"); // 'y'" =
    ["\"//\"", "'\"'", "\"\"\"a \"b\" \"\"\""] := by decide

end SuiteMigration.Java

namespace SuiteMigration.Chars

open SuiteMigration.Text

theorem isBlank_of_isAsciiBlank {c : Char} (h : isAsciiBlank c = true) : isBlank c = true := by
  simp only [isAsciiBlank, Bool.or_eq_true, beq_iff_eq] at h
  obtain (((rfl | rfl) | rfl) | rfl) | rfl := h <;> decide

/-! ### Texts that differ in white space -/

/-- Characters that are the same, or both white space. -/
def Alike (c d : Char) : Prop :=
  c = d ∨ (isBlank c = true ∧ isBlank d = true)

section Alike

variable {c d : Char} {cs ds : List Char}

theorem Alike.isBlank_eq (h : Alike c d) : isBlank c = isBlank d := by
  obtain rfl | ⟨hc, hd⟩ := h
  · rfl
  · rw [hc, hd]

theorem Alike.eq_of_not_blank (h : Alike c d) (hc : isBlank c = false) : c = d := by
  obtain rfl | ⟨hblank, _⟩ := h
  · rfl
  · rw [hc] at hblank
    cases hblank

theorem Alike.dropWhile (h : List.Forall₂ Alike cs ds) :
    List.Forall₂ Alike (cs.dropWhile isBlank) (ds.dropWhile isBlank) := by
  induction h with
  | nil => exact .nil
  | cons hhead htail ih =>
    rw [List.dropWhile_cons, List.dropWhile_cons, hhead.isBlank_eq]
    split
    · exact ih
    · exact .cons hhead htail

theorem Alike.trim (h : List.Forall₂ Alike cs ds) : List.Forall₂ Alike (trim cs) (trim ds) :=
  List.forall₂_reverse_iff.mpr (Alike.dropWhile (List.forall₂_reverse_iff.mpr (Alike.dropWhile h)))

theorem Alike.symm (h : List.Forall₂ Alike cs ds) : List.Forall₂ Alike ds cs :=
  (h.imp fun _ _ h ↦ h.imp Eq.symm And.symm).flip

/-- A sequence without white space at the start of a text is at the start of the other one. -/
theorem Alike.isPrefix (h : List.Forall₂ Alike cs ds) {p : List Char}
    (hp : p.any isBlank = false) (hstart : p <+: cs) : p <+: ds := by
  induction h generalizing p with
  | nil => exact hstart
  | cons hhead htail ih =>
    cases p with
    | nil => exact List.nil_prefix
    | cons e more =>
      obtain ⟨rfl, hmore⟩ := List.cons_prefix_cons.mp hstart
      obtain ⟨hfirst, hothers⟩ := Bool.or_eq_false_iff.mp hp
      rw [← hhead.eq_of_not_blank hfirst, List.prefix_cons_inj]
      exact ih hothers hmore

theorem Alike.eq (h : List.Forall₂ Alike cs ds) (hcs : cs.any isBlank = false) : cs = ds :=
  (Alike.isPrefix h hcs List.prefix_rfl).eq_of_length h.length_eq

/-- Texts that differ in white space have the same words. -/
theorem Alike.words_eq (h : List.Forall₂ Alike cs ds) : words cs = words ds := by
  induction h with
  | nil => rfl
  | @cons c d cs ds hhead htail ih =>
    cases hc : isBlank c with
    | true => rw [words_cons_blank hc, words_cons_blank (hhead.isBlank_eq ▸ hc), ih]
    | false =>
      obtain rfl := hhead.eq_of_not_blank hc
      cases htail with
      | nil => rfl
      | @cons e f cs ds hnext hrest =>
        cases he : isBlank e with
        | true =>
          have hf : isBlank f = true := hnext.isBlank_eq ▸ he
          rw [words_cons_blank he, words_cons_blank hf] at ih
          rw [words_cons_before_blank hc he, words_cons_before_blank hc hf, ih]
        | false =>
          obtain rfl := hnext.eq_of_not_blank he
          obtain ⟨first, others, hwords, hlonger⟩ := words_cons_cons hc he cs
          obtain ⟨first', others', hwords', hlonger'⟩ := words_cons_cons hc he ds
          rw [hwords, hwords', List.cons.injEq] at ih
          rw [hlonger, hlonger', ih.1, ih.2]

end Alike

end SuiteMigration.Chars

namespace SuiteMigration.Java

open SuiteMigration.Text SuiteMigration.Chars

/-! ### Statements without comments -/

/-- Statements being read that differ in the white space of their texts only, wherever they
started. -/
structure Pending.Alike (p q : Pending) : Prop where
  text : List.Forall₂ Chars.Alike p.text q.text
  parens : p.parens = q.parens
  braces : p.braces = q.braces

theorem Pending.opensInitializer_iff (p : Pending) : p.opensInitializer = true ↔
    ['='] <+: p.text.dropWhile isBlank ∨ [']', '['] <+: p.text.dropWhile isBlank := by
  unfold Pending.opensInitializer
  split
  next rest heq => simp [heq]
  next rest heq => simp [heq]
  next hassign hbrackets =>
    simp only [Bool.false_eq_true, false_iff, not_or]
    constructor
    · rintro ⟨rest, hrest⟩
      exact hassign rest hrest.symm
    · rintro ⟨rest, hrest⟩
      exact hbrackets rest hrest.symm

/-- The text of a statement with single spaces between its words. -/
def Statement.collapsed (s : Statement) : String :=
  Text.collapse s.text

namespace Pending.Alike

variable {p q : Pending}

theorem symm (h : p.Alike q) : q.Alike p :=
  ⟨Chars.Alike.symm h.text, h.parens.symm, h.braces.symm⟩

theorem push (h : p.Alike q) {c d : Char} (hcd : Chars.Alike c d) : (p.push c).Alike (q.push d) :=
  ⟨.cons hcd h.text, h.parens, h.braces⟩

theorem begin (h : p.Alike q) (offset offset' : Nat) : (p.begin offset).Alike (q.begin offset') :=
  ⟨h.text, h.parens, h.braces⟩

theorem opensInitializer_eq (h : p.Alike q) : p.opensInitializer = q.opensInitializer := by
  have hopens {p q : Pending} (h : p.Alike q) (hp : p.opensInitializer = true) :
      q.opensInitializer = true := by
    rw [opensInitializer_iff] at hp ⊢
    have hdrop := Chars.Alike.dropWhile h.text
    exact hp.imp (Chars.Alike.isPrefix hdrop (by decide)) (Chars.Alike.isPrefix hdrop (by decide))
  exact Bool.eq_iff_iff.mpr ⟨hopens h, hopens h.symm⟩

theorem endsAt_eq (h : p.Alike q) (c : Char) : p.endsAt c = q.endsAt c := by
  rw [Pending.endsAt, Pending.endsAt, h.parens, h.braces, h.opensInitializer_eq]

theorem nest (h : p.Alike q) (c : Char) : (p.nest c).Alike (q.nest c) := by
  unfold Pending.nest
  rw [h.parens, h.braces, h.opensInitializer_eq]
  split_ifs
  on_goal 6 => exact h
  all_goals exact ⟨h.text, rfl, rfl⟩

theorem any_isBlank_of_mem_bareBlockWords :
    ∀ word ∈ bareBlockWords, word.toList.any isBlank = false := by
  decide

/-- The statement that ends is the same up to white space. -/
theorem statement?_eq (h : p.Alike q) :
    p.statement?.map Statement.collapsed = q.statement?.map Statement.collapsed := by
  have htrim : List.Forall₂ Chars.Alike (Chars.trim p.text.reverse) (Chars.trim q.text.reverse) :=
    Chars.Alike.trim (List.forall₂_reverse_iff.mpr h.text)
  unfold Pending.statement?
  generalize Chars.trim p.text.reverse = cs at htrim
  generalize Chars.trim q.text.reverse = ds at htrim
  have hempty : (String.ofList cs).isEmpty = (String.ofList ds).isEmpty := by
    cases htrim with
    | nil => rfl
    | cons => rw [isEmpty_ofList (List.cons_ne_nil _ _), isEmpty_ofList (List.cons_ne_nil _ _)]
  have hbare {cs ds : List Char} (htrim : List.Forall₂ Chars.Alike cs ds)
      (hmem : String.ofList cs ∈ bareBlockWords) : String.ofList ds ∈ bareBlockWords := by
    have hword := any_isBlank_of_mem_bareBlockWords _ hmem
    rw [String.toList_ofList] at hword
    rwa [← Chars.Alike.eq htrim hword]
  have hcontains : bareBlockWords.contains (String.ofList cs) =
      bareBlockWords.contains (String.ofList ds) := by
    rw [Bool.eq_iff_iff, List.contains_iff_mem, List.contains_iff_mem]
    exact ⟨hbare htrim, hbare (Chars.Alike.symm htrim)⟩
  have hwords : Text.collapse (String.ofList cs) = Text.collapse (String.ofList ds) := by
    rw [Text.collapse, Text.collapse, String.toList_ofList, String.toList_ofList, Chars.collapse,
      Chars.collapse, Chars.Alike.words_eq htrim]
  dsimp only
  rw [hempty, hcontains]
  split
  · rfl
  · exact congrArg some hwords

end Pending.Alike

/-- The marks that comments leave behind add white space to a statement, as comments do. -/
theorem statementsFrom_uncommented {p q : Pending} (h : p.Alike q) (offset offset' : Nat)
    (ms : List Mark) :
    (statementsFrom offset' q (uncommented ms)).map Statement.collapsed =
      (statementsFrom offset p ms).map Statement.collapsed := by
  have hends {p q : Pending} (h : p.Alike q) : q.statement?.toList.map Statement.collapsed =
      p.statement?.toList.map Statement.collapsed := by
    rw [← Option.toList_map, ← Option.toList_map, h.statement?_eq]
  induction ms generalizing p q offset offset' with
  | nil => exact hends h
  | cons mark rest ih =>
    obtain ⟨c, kind⟩ := mark
    cases kind with
    | code =>
      rw [uncommented_cons_code, statementsFrom, statementsFrom]
      dsimp only
      rw [h.endsAt_eq]
      split
      · rw [List.map_append, List.map_append, hends h, ih ⟨.nil, rfl, rfl⟩]
      · refine ih (Pending.Alike.push ?_ (Or.inl rfl)) _ _
        split
        · exact h.nest c
        · exact (h.nest c).begin _ _
    | literal => exact ih ((h.begin _ _).push (Or.inl rfl)) _ _
    | comment => exact ih h _ _
    | lineEnd => exact ih (h.push (.inr (by decide))) _ _
    | blockEnd => exact ih (h.push (.inl rfl)) _ _

/-! ### Text blocks -/

/-- A text without three quotes has no text block, so that both readings agree on it. -/
theorem marksFrom_false_eq {cs : List Char} (h : ¬ ['"', '"', '"'] <:+: cs) :
    marksFrom false .code cs = marks cs := by
  obtain hsame | ⟨before, rest, hparts⟩ := agreesOrParts .code cs
  · exact hsame
  · refine absurd ?_ h
    rw [hparts.text_eq]
    exact ⟨before ++ ['\\'], rest, by simp⟩

theorem infix_append_cases {cs ds p : List Char} (h : p <:+: cs ++ ds) :
    p <:+: ds ∨ ∃ before after, cs = before ++ after ∧ p <+: after ++ ds := by
  obtain ⟨front, back, hfront⟩ := h
  rw [List.append_assoc] at hfront
  rcases List.append_eq_append_iff.mp hfront with ⟨more, rfl, hmore⟩ | ⟨more, rfl, hmore⟩
  · exact Or.inr ⟨front, more, rfl, back, hmore⟩
  · exact Or.inl ⟨more, back, by rw [List.append_assoc, hmore]⟩

/-- Removing comments joins nothing: a sequence without white space stands in the text that is left
only if it stands in the text. -/
theorem infix_of_uncommented {region : Region} {cs p : List Char} (hspace : ' ' ∉ p)
    (hfeed : '\n' ∉ p) (h : p <:+: textOf (uncommented (marksFrom true region cs))) :
    p <:+: cs := by
  induction hlength : cs.length using Nat.strongRecOn generalizing region cs with
  | ind n ih =>
    by_cases hne : cs = []
    · subst hne
      rw [marksFrom_nil] at h
      exact h
    obtain ⟨front, next, rest, hstep⟩ := exists_stepsTo region hne
    have hrest (hp : p <:+: textOf (uncommented (marksFrom true next rest))) : p <:+: cs := by
      rw [hstep.text_eq]
      exact (ih rest.length (hlength ▸ hstep.length_lt) hp rfl).trans
        (List.suffix_append _ _).isInfix
    rw [hstep.marksFrom_eq, uncommented_append, textOf_append] at h
    -- a sequence that starts in what is kept goes on as it does in the text
    have hkept (hfront : uncommented front = front) : p <:+: cs := by
      rw [hfront] at h
      obtain hp | ⟨before, after, hsplit, tail, htail⟩ := infix_append_cases h
      · exact hrest hp
      rw [hstep.text_eq, hsplit, List.append_assoc]
      refine List.IsInfix.trans (List.IsPrefix.isInfix ?_) (List.suffix_append before _).isInfix
      rcases List.append_eq_append_iff.mp htail with ⟨more, hmore, _⟩ | ⟨more, rfl, hmore⟩
      · exact hmore ▸ (List.prefix_append _ _).trans (List.prefix_append _ _)
      · rw [List.mem_append, not_or] at hspace hfeed
        exact (List.prefix_append_right_inj _).mpr
          (prefix_of_uncommented hspace.2 hfeed.2 ⟨tail, hmore.symm⟩).1
    have hblank {c : Char} (hc : c ∉ p)
        (hp : p <:+: c :: textOf (uncommented (marksFrom true next rest))) : p <:+: cs := by
      obtain hp | hp := List.infix_cons_iff.mp hp
      · exact eq_nil_of_prefix_cons hc hp ▸ List.nil_infix
      · exact hrest hp
    cases hstep.step with
    | code c => exact hkept rfl
    | literal _ _ hkinds =>
      exact hkept (uncommented_eq_self fun mark hmark ↦ Or.inr (hkinds mark hmark))
    | comment _ _ hkinds =>
      rw [uncommented_eq_nil hkinds] at h
      exact hrest h
    | lineEnd => exact hblank hfeed h
    | blockEnd => exact hblank hspace h

/-- Statements without comments, in a body without text blocks. -/
theorem collapsed_statements_stripComments {body : String}
    (h : Text.contains body "\"\"\"" = false) :
    (statements (stripComments body)).map Statement.collapsed =
      (statements body).map Statement.collapsed := by
  have hquotes : "\"\"\"".toList = ['"', '"', '"'] := rfl
  have hbody : ¬ ['"', '"', '"'] <:+: body.toList := fun hinfix ↦ by
    rw [Text.contains, hquotes, Chars.contains_iff.mpr hinfix] at h
    cases h
  have hstripped : ¬ ['"', '"', '"'] <:+: (stripComments body).toList := by
    rw [toList_stripComments]
    exact fun hinfix ↦ hbody (infix_of_uncommented (by decide) (by decide) hinfix)
  rw [statements, statements, marksFrom_false_eq hbody, marksFrom_false_eq hstripped,
    marks_stripComments]
  exact statementsFrom_uncommented ⟨.nil, rfl, rfl⟩ 0 0 _

/-! ### The order of statements -/

theorem statementsFrom_cons (offset : Nat) (p : Pending) (mark : Mark) (rest : List Mark) :
    statementsFrom offset p (mark :: rest) =
      if mark.kind == .code && p.endsAt mark.char then
        p.statement?.toList ++ statementsFrom (offset + mark.char.utf8Size) {} rest
      else statementsFrom (offset + mark.char.utf8Size) (p.read offset mark) rest := by
  obtain ⟨c, kind⟩ := mark
  cases kind with
  | code => rfl
  | _ => rfl

/-- What ends as a statement is the trimmed text that has been read, from where it started. -/
theorem Pending.statement?_eq_some {p : Pending} {s : Statement} (h : p.statement? = some s) :
    s.text = String.ofList (Chars.trim p.text.reverse) ∧ s.text ≠ "" ∧ s.text ∉ bareBlockWords ∧
      s.offset = p.start.getD 0 := by
  unfold Pending.statement? at h
  dsimp only at h
  split at h
  · cases h
  next hkept =>
    obtain rfl := Option.some.inj h
    rw [Bool.or_eq_true, not_or, String.isEmpty_iff, List.contains_iff_mem] at hkept
    exact ⟨rfl, hkept.1, hkept.2, rfl⟩

@[simp] theorem Pending.nest_text (p : Pending) (c : Char) : (p.nest c).text = p.text := by
  unfold Pending.nest
  split_ifs <;> rfl

@[simp] theorem Pending.nest_start (p : Pending) (c : Char) : (p.nest c).start = p.start := by
  unfold Pending.nest
  split_ifs <;> rfl

theorem pairwise_toList {α : Type} {r : α → α → Prop} (found : Option α) :
    found.toList.Pairwise r := by
  cases found with
  | none => exact .nil
  | some a => exact List.pairwise_singleton r a

/-- A statement being read has a start as soon as it holds more than white space. The start is the
position of a character among those that have been read since position `low`. -/
structure Pending.Begun (p : Pending) (low : Nat) (done : List Char) : Prop where
  blank : p.start = none → ∀ c ∈ p.text, isBlank c = true
  start : ∀ s ∈ p.start, ∃ before c after, done = before ++ c :: after ∧
    s = low + Chars.byteSize before

namespace Pending.Begun

variable {p : Pending} {low : Nat} {done : List Char}

theorem empty (low : Nat) : ({} : Pending).Begun low [] :=
  ⟨fun _ ↦ List.forall_mem_nil _, nofun⟩

theorem extend (h : p.Begun low done) (c : Char) : p.Begun low (done ++ [c]) := by
  refine ⟨h.blank, fun s hs ↦ ?_⟩
  obtain ⟨before, d, after, rfl, hbefore⟩ := h.start s hs
  exact ⟨before, d, after ++ [c], by simp, hbefore⟩

theorem nest (h : p.Begun low done) (c : Char) : (p.nest c).Begun low done := by
  refine ⟨?_, ?_⟩
  · rw [nest_text, nest_start]
    exact h.blank
  · rw [nest_start]
    exact h.start

theorem pushBlank (h : p.Begun low done) {c : Char} (hc : isBlank c = true) :
    (p.push c).Begun low done :=
  ⟨fun hstart ↦ List.forall_mem_cons.mpr ⟨hc, h.blank hstart⟩, h.start⟩

/-- A statement starts at a character that is read, if it has not started before. -/
theorem begin (h : p.Begun low done) (c : Char) :
    ((p.begin (low + Chars.byteSize done)).push c).Begun low (done ++ [c]) := by
  refine ⟨nofun, fun s hs ↦ ?_⟩
  obtain rfl : p.start.getD (low + Chars.byteSize done) = s := Option.some.inj hs
  cases hstart : p.start with
  | none => exact ⟨done, c, [], rfl, rfl⟩
  | some start => exact (h.extend c).start start hstart

theorem read (h : p.Begun low done) (mark : Mark) :
    (p.read (low + Chars.byteSize done) mark).Begun low (done ++ [mark.char]) := by
  obtain ⟨c, kind⟩ := mark
  cases kind with
  | comment => exact h.extend c
  | lineEnd | blockEnd => exact (h.extend c).pushBlank isBlank_space
  | literal => exact h.begin c
  | code =>
    unfold Pending.read
    dsimp only
    split
    next hblank => exact ((h.nest c).extend c).pushBlank (isBlank_of_isAsciiBlank hblank)
    next => exact (h.nest c).begin c

/-- A statement that ends has started at a character that has been read. -/
theorem exists_offset (h : p.Begun low done) {s : Statement} (hs : p.statement? = some s) :
    ∃ before c after, done = before ++ c :: after ∧ s.offset = low + Chars.byteSize before := by
  obtain ⟨htext, hne, -, hoffset⟩ := statement?_eq_some hs
  cases hstart : p.start with
  | some start =>
    rw [hoffset, hstart]
    exact h.start start hstart
  | none =>
    refine absurd ?_ hne
    rw [htext, Chars.trim_of_blank fun c hc ↦ h.blank hstart c (List.mem_reverse.mp hc)]

end Pending.Begun

/-- Statements start at characters of the body, each before the next one. -/
theorem statementsFrom_ordered {p : Pending} {low : Nat} {done : List Char} (h : p.Begun low done)
    (ms : List Mark) :
    (∀ s ∈ statementsFrom (low + Chars.byteSize done) p ms, ∃ before c after,
      done ++ textOf ms = before ++ c :: after ∧ s.offset = low + Chars.byteSize before) ∧
    (statementsFrom (low + Chars.byteSize done) p ms).Pairwise (·.offset < ·.offset) := by
  induction ms generalizing p low done with
  | nil =>
    rw [textOf, List.map_nil, List.append_nil]
    exact ⟨fun s hs ↦ h.exists_offset (Option.mem_toList.mp hs), pairwise_toList _⟩
  | cons mark rest ih =>
    rw [statementsFrom_cons, textOf_cons]
    split
    · -- what follows the end of a statement starts behind it
      obtain ⟨hstart, hordered⟩ := ih (Pending.Begun.empty
        (low + Chars.byteSize done + mark.char.utf8Size))
      refine ⟨fun s hs ↦ ?_, List.pairwise_append.mpr ⟨pairwise_toList _, hordered, ?_⟩⟩
      · obtain hs | hs := List.mem_append.mp hs
        · obtain ⟨before, c, after, rfl, hoffset⟩ := h.exists_offset (Option.mem_toList.mp hs)
          exact ⟨before, c, after ++ mark.char :: textOf rest, by simp, hoffset⟩
        · obtain ⟨before, c, after, hrest, hoffset⟩ := hstart s hs
          refine ⟨done ++ mark.char :: before, c, after, ?_, ?_⟩
          · rw [List.append_assoc, List.cons_append, ← hrest, List.nil_append]
          · rw [hoffset, byteSize_append, Chars.byteSize, Nat.add_assoc, Nat.add_assoc]
      · intro s hs t ht
        obtain ⟨before, c, after, rfl, hoffset⟩ := h.exists_offset (Option.mem_toList.mp hs)
        obtain ⟨others, d, more, -, hlater⟩ := hstart t ht
        rw [byteSize_append, Chars.byteSize] at hlater
        have hsize := c.utf8Size_pos
        omega
    · have hread := h.read mark
      have hsize : low + Chars.byteSize (done ++ [mark.char]) =
          low + Chars.byteSize done + mark.char.utf8Size := by
        rw [byteSize_append, Chars.byteSize, Chars.byteSize, Nat.add_zero, Nat.add_assoc]
      have hlater := ih hread
      rwa [hsize, List.append_assoc, List.singleton_append] at hlater

theorem exists_pending_of_mem {offset : Nat} {p : Pending} {ms : List Mark} {s : Statement}
    (h : s ∈ statementsFrom offset p ms) : ∃ q : Pending, q.statement? = some s := by
  induction ms generalizing offset p with
  | nil => exact ⟨p, Option.mem_toList.mp h⟩
  | cons mark rest ih =>
    rw [statementsFrom_cons] at h
    split at h
    · obtain h | h := List.mem_append.mp h
      · exact ⟨p, Option.mem_toList.mp h⟩
      · exact ih h
    · exact ih h

/-- The statements of a method body. Where no three quotes stand in a row, they are up to white
space the statements of the body without its comments. They start at characters of the body, one
before the next, and each is a trimmed text that is neither empty nor a word that opens a block. -/
theorem statements_in_order (body : String) :
    (Text.contains body "\"\"\"" = false →
      (statements (stripComments body)).map Statement.collapsed =
        (statements body).map Statement.collapsed) ∧
    (statements body).Pairwise (·.offset < ·.offset) ∧
    ∀ s ∈ statements body,
      (∃ before c after, body.toList = before ++ c :: after ∧ s.offset = Chars.byteSize before) ∧
        s.text ≠ "" ∧ Text.trim s.text = s.text ∧ s.text ∉ bareBlockWords := by
  obtain ⟨hstart, hordered⟩ :=
    statementsFrom_ordered (Pending.Begun.empty 0) (marksFrom false .code body.toList)
  refine ⟨collapsed_statements_stripComments, hordered, fun s hs ↦ ?_⟩
  obtain ⟨q, hq⟩ := exists_pending_of_mem hs
  obtain ⟨htext, hne, hbare, -⟩ := Pending.statement?_eq_some hq
  obtain ⟨before, c, after, hbody, hoffset⟩ := hstart s hs
  rw [List.nil_append, textOf_marksFrom] at hbody
  rw [Nat.zero_add] at hoffset
  refine ⟨⟨before, c, after, hbody, hoffset⟩, hne, ?_, hbare⟩
  rw [htext, Text.trim, String.toList_ofList, Chars.trim_trim]

/-- A body with comments in an initializer and between an `else` and its brace. -/
def commentedBody : String :=
  "int[] a = // \x7d;\n\x7b1, /* ; */ 2\x7d; if (b) c(); else /* é */ \x7b d(); \x7d"

theorem statements_in_order_commented_body :
    Text.contains commentedBody "\"\"\"" = false ∧
      (statements commentedBody).map Statement.collapsed =
        ["int[] a = \x7b1, 2\x7d", "if (b) c()", "d()"] ∧
      (statements (stripComments commentedBody)).map Statement.collapsed =
        ["int[] a = \x7b1, 2\x7d", "if (b) c()", "d()"] := by
  have hquotes : Text.contains commentedBody "\"\"\"" = false := by decide +kernel
  have hstatements : (statements commentedBody).map Statement.collapsed =
      ["int[] a = \x7b1, 2\x7d", "if (b) c()", "d()"] := by decide +kernel
  exact ⟨hquotes, hstatements, ((statements_in_order _).1 hquotes).trans hstatements⟩

end SuiteMigration.Java
