import Mathlib.Data.List.Basic
import SuiteMigration.Java.Region

/-!
Marks of a text that is put together from parts. Comments and literals open and close with up to
three characters, so the marks of a part depend on what follows it only near its end; plain code
and a text that ends with a closing brace have the same marks whatever follows.
-/

set_option autoImplicit false
set_option relaxedAutoImplicit false

namespace SuiteMigration.Java

@[simp] theorem marksFrom_nil (blockEscapes : Bool) (region : Region) :
    marksFrom blockEscapes region [] = [] := by
  cases region <;> rfl

/-- Code that opens no comment and no text block. -/
theorem marksFrom_code_cons {c : Char} {rest : List Char} (blockEscapes : Bool)
    (hline : ∀ more, c = '/' → rest = '/' :: more → False)
    (hblock : ∀ more, c = '/' → rest = '*' :: more → False)
    (htriple : ∀ more, c = '"' → rest = '"' :: '"' :: more → False) :
    marksFrom blockEscapes .code (c :: rest) =
      if c == '"' then ⟨c, .literal⟩ :: marksFrom blockEscapes .string rest
      else if c == '\x27' then ⟨c, .literal⟩ :: marksFrom blockEscapes .character rest
      else ⟨c, .code⟩ :: marksFrom blockEscapes .code rest := by
  rw [marksFrom]
  · exact hline
  · exact hblock
  · exact htriple

/-- Marks are about the characters of the text, in their order. -/
theorem textOf_marksFrom (blockEscapes : Bool) (region : Region) (cs : List Char) :
    textOf (marksFrom blockEscapes region cs) = cs := by
  fun_induction marksFrom blockEscapes region cs <;> simp_all [textOf]

@[simp] theorem textOf_marks (cs : List Char) : textOf (marks cs) = cs :=
  textOf_marksFrom true .code cs

@[simp] theorem textOf_cons (mark : Mark) (ms : List Mark) :
    textOf (mark :: ms) = mark.char :: textOf ms := rfl

@[simp] theorem textOf_append (ms ns : List Mark) : textOf (ms ++ ns) = textOf ms ++ textOf ns :=
  List.map_append

/-- A text that starts in a region has these marks and ends in a region, whatever follows it. -/
def Lexes (region : Region) (cs : List Char) (ms : List Mark) (after : Region) : Prop :=
  ∀ rest, marksFrom true region (cs ++ rest) = ms ++ marksFrom true after rest

section Lexes

variable {region middle after : Region} {cs ds : List Char} {ms ns : List Mark}

theorem Lexes.append (h : Lexes region cs ms middle) (hnext : Lexes middle ds ns after) :
    Lexes region (cs ++ ds) (ms ++ ns) after := by
  intro rest
  rw [List.append_assoc, h, hnext, List.append_assoc]

theorem Lexes.textOf_eq (h : Lexes region cs ms after) : textOf ms = cs := by
  have hmarks := h []
  rw [List.append_nil, marksFrom_nil, List.append_nil] at hmarks
  rw [← hmarks, textOf_marksFrom]

theorem Lexes.marks_eq (h : Lexes .code cs ms .code) (rest : List Char) :
    marks (cs ++ rest) = ms ++ marks rest :=
  h rest

end Lexes

/-! ### Plain code -/

/-- A character that opens neither a comment nor a literal. -/
def isPlain (c : Char) : Bool :=
  c != '/' && c != '"' && c != '\x27'

def codeMarks (cs : List Char) : List Mark :=
  cs.map fun c ↦ ⟨c, .code⟩

theorem lexes_plain {cs : List Char} (h : cs.all isPlain = true) :
    Lexes .code cs (codeMarks cs) .code := by
  intro rest
  induction cs with
  | nil => rfl
  | cons c more ih =>
    rw [List.all_cons, Bool.and_eq_true] at h
    obtain ⟨⟨hslash, hquote⟩, hcharacter⟩ : (c ≠ '/' ∧ c ≠ '"') ∧ c ≠ '\x27' := by
      simpa [isPlain] using h.1
    rw [List.cons_append, marksFrom_code_cons true (fun _ heq ↦ absurd heq hslash)
      (fun _ heq ↦ absurd heq hslash) (fun _ heq ↦ absurd heq hquote), ih h.2]
    simp [hquote, hcharacter, codeMarks]

theorem marks_plain {cs : List Char} (h : cs.all isPlain = true) : marks cs = codeMarks cs := by
  simpa [marks] using lexes_plain h []

@[simp] theorem textOf_codeMarks (cs : List Char) : textOf (codeMarks cs) = cs := by
  simp [textOf, codeMarks, Function.comp_def]

theorem codeMarks_cons (c : Char) (cs : List Char) :
    codeMarks (c :: cs) = ⟨c, .code⟩ :: codeMarks cs := rfl

theorem codeMarks_append (cs ds : List Char) :
    codeMarks (cs ++ ds) = codeMarks cs ++ codeMarks ds :=
  List.map_append

/-! ### Blocks -/

/-- No pattern without a brace starts a text only because a brace follows. -/
theorem append_brace_ne {p cs : List Char} (hp : '\x7d' ∉ p) (h : ∀ tail, cs ≠ p ++ tail)
    (rest tail : List Char) : cs ++ '\x7d' :: rest ≠ p ++ tail := by
  induction p generalizing cs with
  | nil => exact absurd rfl (h cs)
  | cons c more ih =>
    rw [List.mem_cons, not_or] at hp
    cases cs with
    | nil => exact fun heq ↦ hp.1 (List.cons.inj heq).1
    | cons d others =>
      intro heq
      obtain ⟨rfl, hothers⟩ := List.cons.inj heq
      exact ih hp.2 (fun tail htail ↦ h tail (congrArg _ htail)) hothers

/-- A text that starts in a region and is followed by a closing brace is marked whatever comes after
the brace; if the brace is code, then so is what comes after it. -/
def LexesToBrace (region : Region) (cs : List Char) : Prop :=
  ∃ ms kind after, Lexes region (cs ++ ['\x7d']) (ms ++ [⟨'\x7d', kind⟩]) after ∧
    (kind = .code → after = .code)

theorem lexesToBrace_nil (region : Region) : LexesToBrace region [] := by
  cases region with
  | code => exact ⟨[], .code, .code, lexes_plain (by decide), fun _ ↦ rfl⟩
  | string => exact ⟨[], .literal, .string, fun _ ↦ rfl, nofun⟩
  | character => exact ⟨[], .literal, .character, fun _ ↦ rfl, nofun⟩
  | textBlock => exact ⟨[], .literal, .textBlock, fun _ ↦ rfl, nofun⟩
  | lineComment => exact ⟨[], .comment, .lineComment, fun _ ↦ rfl, nofun⟩
  | blockComment => exact ⟨[], .comment, .blockComment, fun _ ↦ rfl, nofun⟩

/-- Characters in front that are marked for themselves change nothing. -/
theorem LexesToBrace.prepend {region middle : Region} {cs : List Char} (h : LexesToBrace middle cs)
    (front : List Mark)
    (hfront : ∀ rest, marksFrom true region (textOf front ++ (cs ++ '\x7d' :: rest)) =
      front ++ marksFrom true middle (cs ++ '\x7d' :: rest)) :
    LexesToBrace region (textOf front ++ cs) := by
  obtain ⟨ms, kind, after, hms, hkind⟩ := h
  refine ⟨front ++ ms, kind, after, fun rest ↦ ?_, hkind⟩
  have hcs := hms rest
  simp only [List.append_assoc, List.singleton_append] at hcs ⊢
  rw [hfront, hcs]

theorem LexesToBrace.cons {region middle : Region} {c : Char} {cs : List Char}
    (h : LexesToBrace middle cs) (kind : MarkKind)
    (hcons : ∀ tail, marksFrom true region (c :: (cs ++ '\x7d' :: tail)) =
      ⟨c, kind⟩ :: marksFrom true middle (cs ++ '\x7d' :: tail)) :
    LexesToBrace region (c :: cs) :=
  h.prepend [⟨c, kind⟩] hcons

/-- A backslash at the end escapes the brace. -/
theorem lexesToBrace_backslash {region : Region} {rest : List Char}
    (hregion : region = .string ∨ region = .character ∨ region = .textBlock)
    (hrest : ∀ c more, rest ≠ c :: more) : LexesToBrace region ('\\' :: rest) := by
  cases rest with
  | nil =>
    refine ⟨[⟨'\\', .literal⟩], .literal, region, fun tail ↦ ?_, nofun⟩
    rcases hregion with rfl | rfl | rfl <;> rfl
  | cons c more => exact absurd rfl (hrest c more)

/-- Code that opens no comment and no text block does not do so before a brace. -/
theorem marksFrom_code_before_brace {c : Char} {rest : List Char}
    (hline : ∀ more, c = '/' → rest = '/' :: more → False)
    (hblock : ∀ more, c = '/' → rest = '*' :: more → False)
    (htriple : ∀ more, c = '"' → rest = '"' :: '"' :: more → False) (tail : List Char) :
    marksFrom true .code (c :: (rest ++ '\x7d' :: tail)) =
      if c == '"' then ⟨c, .literal⟩ :: marksFrom true .string (rest ++ '\x7d' :: tail)
      else if c == '\x27' then ⟨c, .literal⟩ :: marksFrom true .character (rest ++ '\x7d' :: tail)
      else ⟨c, .code⟩ :: marksFrom true .code (rest ++ '\x7d' :: tail) := by
  refine marksFrom_code_cons true (fun more hc ↦ ?_) (fun more hc ↦ ?_) (fun more hc ↦ ?_)
  · exact append_brace_ne (p := ['/']) (by decide) (hline · hc) tail more
  · exact append_brace_ne (p := ['*']) (by decide) (hblock · hc) tail more
  · exact append_brace_ne (p := ['"', '"']) (by decide) (htriple · hc) tail more

/-- Every text is marked for itself up to a closing brace, which is part of no opening or closing
sequence. -/
theorem lexesToBrace (region : Region) (cs : List Char) : LexesToBrace region cs := by
  generalize hescapes : true = blockEscapes
  -- the sequences at the start of a text are read as a whole; all other characters are read alone,
  -- except that a backslash at the end of a literal goes with the brace
  fun_induction marksFrom blockEscapes region cs with
  | case1 region => exact lexesToBrace_nil region
  | case2 rest ih => exact ih.prepend [⟨'/', .comment⟩, ⟨'/', .comment⟩] fun _ ↦ rfl
  | case3 rest ih => exact ih.prepend [⟨'/', .comment⟩, ⟨'*', .comment⟩] fun _ ↦ rfl
  | case4 rest ih =>
    exact ih.prepend [⟨'"', .literal⟩, ⟨'"', .literal⟩, ⟨'"', .literal⟩] fun _ ↦ rfl
  | case5 c rest hline hblock htriple hquote ih =>
    refine ih.cons .literal fun tail ↦ ?_
    exact (marksFrom_code_before_brace hline hblock htriple tail).trans (if_pos hquote)
  | case6 c rest hline hblock htriple hquote hcharacter ih =>
    refine ih.cons .literal fun tail ↦ ?_
    exact (marksFrom_code_before_brace hline hblock htriple tail).trans
      ((if_neg hquote).trans (if_pos hcharacter))
  | case7 c rest hline hblock htriple hquote hcharacter ih =>
    refine ih.cons .code fun tail ↦ ?_
    exact (marksFrom_code_before_brace hline hblock htriple tail).trans
      ((if_neg hquote).trans (if_neg hcharacter))
  | case8 c rest ih => exact ih.prepend [⟨'\\', .literal⟩, ⟨c, .literal⟩] fun _ ↦ rfl
  | case9 c rest hescape ih =>
    by_cases hc : c = '\\'
    · subst hc
      exact lexesToBrace_backslash (.inl rfl) fun d more ↦ hescape d more rfl
    · refine ih.cons .literal fun tail ↦ ?_
      rw [marksFrom]
      exact fun _ _ heq ↦ absurd heq hc
  | case10 c rest ih => exact ih.prepend [⟨'\\', .literal⟩, ⟨c, .literal⟩] fun _ ↦ rfl
  | case11 c rest hescape ih =>
    by_cases hc : c = '\\'
    · subst hc
      exact lexesToBrace_backslash (.inr (.inl rfl)) fun d more ↦ hescape d more rfl
    · refine ih.cons .literal fun tail ↦ ?_
      rw [marksFrom]
      exact fun _ _ heq ↦ absurd heq hc
  | case12 rest ih =>
    exact ih.prepend [⟨'"', .literal⟩, ⟨'"', .literal⟩, ⟨'"', .literal⟩] fun _ ↦ rfl
  | case13 c rest hblock ih => exact ih.prepend [⟨'\\', .literal⟩, ⟨c, .literal⟩] fun _ ↦ rfl
  | case14 c rest hnone ih => exact absurd hescapes.symm hnone
  | case15 c rest htriple hescape ih =>
    by_cases hc : c = '\\'
    · subst hc
      exact lexesToBrace_backslash (.inr (.inr rfl)) fun d more ↦ hescape d more rfl
    · refine ih.cons .literal fun tail ↦ ?_
      rw [marksFrom]
      · exact fun more heq ↦
          append_brace_ne (p := ['"', '"']) (by decide) (htriple · heq) tail more
      · exact fun _ _ heq ↦ absurd heq hc
  | case16 c rest hline ih =>
    refine ih.cons .lineEnd fun tail ↦ ?_
    rw [marksFrom, if_pos hline]
  | case17 c rest hline ih =>
    refine ih.cons .comment fun tail ↦ ?_
    rw [marksFrom, if_neg hline]
  | case18 rest ih => exact ih.prepend [⟨'*', .comment⟩, ⟨'/', .blockEnd⟩] fun _ ↦ rfl
  | case19 c rest hclose ih =>
    refine ih.cons .comment fun tail ↦ ?_
    rw [marksFrom]
    exact fun more heq ↦ append_brace_ne (p := ['/']) (by decide) (hclose · heq) tail more

end SuiteMigration.Java
