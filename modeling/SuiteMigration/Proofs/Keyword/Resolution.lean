import SuiteMigration.Keyword.Pattern
import SuiteMigration.Keyword.StepCall
import SuiteMigration.Proofs.Text.Occurrence

/-!
Steps resolve against the keywords of their patterns. A pattern of literal words and typed
parameters and a step that fills in the parameters are two renderings of one list of tokens. The
name of the one comes from a cascade of replacements and the name of the other from a scan of the
characters; both are the title case of the same words.
-/

set_option autoImplicit false
set_option relaxedAutoImplicit false

namespace SuiteMigration.Keyword

open SuiteMigration.Text SuiteMigration.Chars

/-! ### Tokens -/

/-- The punctuation of literal words. -/
def punctuation : List Char :=
  ['\x27', ',', '.', ':', ';', '!', '-']

/-- The characters of literal words. -/
def isLiteralChar (c : Char) : Bool :=
  isAlphabetic c || punctuation.contains c

structure LiteralWord where
  text : List Char
  nonempty : text ≠ []
  literal : ∀ c ∈ text, isLiteralChar c = true

/-- A text that can stand between double quotes. -/
structure QuotedText where
  text : List Char
  unquoted : '"' ∉ text

/-- A whole number: digits, perhaps after a minus sign. -/
structure IntegerText where
  negative : Bool
  digits : List Char
  nonempty : digits ≠ []
  decimal : ∀ c ∈ digits, isAsciiDigit c = true

def IntegerText.text (i : IntegerText) : List Char :=
  if i.negative then '-' :: i.digits else i.digits

/-- A word of a pattern, or a parameter of it with the value that a step fills in. -/
inductive StepToken where
  | word (w : LiteralWord)
  | string (value : QuotedText)
  | int (value : IntegerText)

namespace StepToken

/-- The token with texts for the two kinds of parameters. -/
def render (string int : List Char) : StepToken → List Char
  | .word w => w.text
  | .string _ => string
  | .int _ => int

/-- The token in a pattern. -/
def pattern : StepToken → List Char :=
  render "\x7bstring\x7d".toList "\x7bint\x7d".toList

/-- The token in a step. -/
def text : StepToken → List Char
  | .word w => w.text
  | .string value => '"' :: (value.text ++ ['"'])
  | .int value => value.text

def value? : StepToken → Option (List Char)
  | .word _ => none
  | .string value => some value.text
  | .int value => some value.text

def isString : StepToken → Bool
  | .string _ => true
  | _ => false

def isInt : StepToken → Bool
  | .int _ => true
  | _ => false

/-- The part of a step that the token becomes. -/
def part : StepToken → StepPart
  | .word w => .word w.text
  | .string value => .argument "text" value.text
  | .int value => .argument "number" value.text

end StepToken

/-- A pattern: its tokens separated by single spaces. -/
def patternText (tokens : List StepToken) : String :=
  String.ofList (join [' '] (tokens.map StepToken.pattern))

/-- A step: the tokens of a pattern with the values filled in. -/
def stepText (tokens : List StepToken) : String :=
  String.ofList (join [' '] (tokens.map StepToken.text))

/-! ### Characters -/

theorem LiteralWord.notMem (w : LiteralWord) {c : Char} (h : isLiteralChar c = false) :
    c ∉ w.text := by
  intro hc
  rw [w.literal c hc] at h
  cases h

/-- A class of characters without letters and punctuation has no literal character. -/
theorem not_of_isLiteralChar {p : Char → Bool} (hletter : ∀ d, p d = true → isAlphabetic d = false)
    (hpunctuation : punctuation.any p = false) {c : Char} (h : isLiteralChar c = true) :
    p c = false := by
  cases hp : p c with
  | false => rfl
  | true =>
    rw [isLiteralChar, hletter c hp, Bool.false_or, List.contains_iff_mem] at h
    exact absurd hp (List.any_eq_false.mp hpunctuation c h)

theorem LiteralWord.isBlank (w : LiteralWord) : ∀ c ∈ w.text, isBlank c = false := fun c hc ↦
  not_of_isLiteralChar (fun _ ↦ isAlphabetic_of_isBlank) (by decide) (w.literal c hc)

theorem LiteralWord.isAsciiDigit (w : LiteralWord) : ∀ c ∈ w.text, isAsciiDigit c = false :=
  fun c hc ↦ not_of_isLiteralChar (fun _ ↦ isAlphabetic_of_isAsciiDigit) (by decide)
    (w.literal c hc)

theorem IntegerText.isBlank (i : IntegerText) : ∀ c ∈ i.text, isBlank c = false := by
  intro c hc
  unfold IntegerText.text at hc
  split at hc
  · rcases List.mem_cons.mp hc with rfl | hc
    · decide
    · exact isBlank_of_isAsciiDigit (i.decimal c hc)
  · exact isBlank_of_isAsciiDigit (i.decimal c hc)

theorem IntegerText.notMem (i : IntegerText) {c : Char} (hminus : c ≠ '-')
    (hdigit : isAsciiDigit c = false) : c ∉ i.text := by
  intro hc
  have hdecimal : c ∉ i.digits := fun hmem ↦ by
    rw [i.decimal c hmem] at hdigit
    cases hdigit
  unfold IntegerText.text at hc
  split at hc
  · rcases List.mem_cons.mp hc with rfl | hc
    · exact hminus rfl
    · exact hdecimal hc
  · exact hdecimal hc

/-! ### Steps -/

/-- Characters other than quotes and white space belong to the word that is being read. -/
theorem stepPartsFrom_plain {cs : List Char} (hquote : '"' ∉ cs)
    (hblank : ∀ c ∈ cs, isBlank c = false) (current rest : List Char) :
    stepPartsFrom false current (cs ++ rest) =
      stepPartsFrom false (cs.reverse ++ current) rest := by
  induction cs generalizing current with
  | nil => rfl
  | cons c more ih =>
    have hc : (c == '"') = false :=
      beq_eq_false_iff_ne.mpr fun heq ↦ hquote (heq ▸ List.mem_cons_self)
    rw [List.cons_append, stepPartsFrom, hc, hblank c List.mem_cons_self, if_neg Bool.false_ne_true,
      if_neg Bool.false_ne_true, ih (fun h ↦ hquote (List.mem_cons_of_mem _ h))
        (fun d hd ↦ hblank d (List.mem_cons_of_mem _ hd))]
    simp

theorem stepPartsFrom_quoted {cs : List Char} (hquote : '"' ∉ cs) (current rest : List Char) :
    stepPartsFrom true current (cs ++ '"' :: rest) =
      .argument "text" (current.reverse ++ cs) :: stepPartsFrom false [] rest := by
  induction cs generalizing current with
  | nil => simp [stepPartsFrom]
  | cons c more ih =>
    have hc : (c == '"') = false :=
      beq_eq_false_iff_ne.mpr fun heq ↦ hquote (heq ▸ List.mem_cons_self)
    rw [List.cons_append, stepPartsFrom, hc, if_neg Bool.false_ne_true,
      ih fun h ↦ hquote (List.mem_cons_of_mem _ h)]
    simp

theorem isStepNumber_literal (w : LiteralWord) : isStepNumber w.text = false := by
  have hhead (cs : List Char) (h : ∀ c ∈ cs, c ∈ w.text) :
      cs.head?.any Text.isAsciiDigit = false := by
    cases cs with
    | nil => rfl
    | cons c rest => exact w.isAsciiDigit c (h c List.mem_cons_self)
  unfold isStepNumber
  dsimp only
  split
  next rest htext =>
    rw [hhead rest fun c hc ↦ htext ▸ List.mem_cons_of_mem _ hc]
    simp
  next =>
    rw [hhead w.text fun _ hc ↦ hc]
    simp

theorem isStepNumber_integer (i : IntegerText) : isStepNumber i.text = true := by
  have hnotMem {c : Char} (hc : isAsciiDigit c = false) : c ∉ i.digits := fun h ↦ by
    rw [i.decimal c h] at hc
    cases hc
  have hpoint : '.' ∉ i.digits := hnotMem (by decide)
  have hdigits : (!i.digits.isEmpty && i.digits.all (fun c ↦ isAsciiDigit c || c == '.') &&
      i.digits.head?.any isAsciiDigit && decide (i.digits.count '.' ≤ 1) &&
      i.digits.getLast? != some '.') = true := by
    obtain ⟨d, rest, hcons⟩ := List.exists_cons_of_ne_nil i.nonempty
    have hhead : i.digits.head?.any isAsciiDigit = true := by
      rw [hcons]
      exact i.decimal d (hcons ▸ List.mem_cons_self)
    have hall : i.digits.all (fun c ↦ isAsciiDigit c || c == '.') = true :=
      List.all_eq_true.mpr fun c hc ↦ by rw [i.decimal c hc, Bool.true_or]
    have hlast : (i.digits.getLast? != some '.') = true :=
      bne_iff_ne.mpr fun h ↦ hpoint (List.mem_of_getLast? h)
    rw [hall, hhead, hlast, List.count_eq_zero_of_not_mem hpoint]
    simp [i.nonempty]
  unfold IntegerText.text
  split
  · exact hdigits
  · unfold isStepNumber
    dsimp only
    split
    next rest heq =>
      have hminus : '-' ∉ i.digits := hnotMem (by decide)
      exact absurd (heq ▸ List.mem_cons_self) hminus
    next => exact hdigits

theorem partOfWord_literal (w : LiteralWord) : partOfWord w.text = [.word w.text] := by
  rw [partOfWord, isStepNumber_literal]
  simp [w.nonempty]

theorem IntegerText.text_ne_nil (i : IntegerText) : i.text ≠ [] := by
  unfold IntegerText.text
  split
  · exact List.cons_ne_nil _ _
  · exact i.nonempty

theorem partOfWord_integer (i : IntegerText) :
    partOfWord i.text = [.argument "number" i.text] := by
  rw [partOfWord, isStepNumber_integer]
  simp [i.text_ne_nil]

/-- A word with the end of the step or a space after it is a part of the step. -/
theorem stepPartsFrom_word {cs : List Char} (hquote : '"' ∉ cs)
    (hblank : ∀ c ∈ cs, isBlank c = false) :
    stepPartsFrom false [] cs = partOfWord cs ∧
      ∀ rest, stepPartsFrom false [] (cs ++ ' ' :: rest) =
        partOfWord cs ++ stepPartsFrom false [] rest := by
  have hplain := stepPartsFrom_plain hquote hblank []
  refine ⟨?_, fun rest ↦ ?_⟩
  · have hend := hplain []
    rw [List.append_nil, List.append_nil, stepPartsFrom, List.reverse_reverse] at hend
    exact hend
  · rw [hplain, List.append_nil, stepPartsFrom, if_neg (by decide), if_pos isBlank_space,
      List.reverse_reverse]

/-- A token with the end of the step or a space after it is one part of the step. -/
theorem stepPartsFrom_token (t : StepToken) :
    stepPartsFrom false [] t.text = [t.part] ∧
      ∀ rest, stepPartsFrom false [] (t.text ++ ' ' :: rest) =
        t.part :: stepPartsFrom false [] rest := by
  -- a token without quotes and white space is a word of the step
  have hword {cs : List Char} {part : StepPart} (hquote : '"' ∉ cs)
      (hblank : ∀ c ∈ cs, isBlank c = false) (hpart : partOfWord cs = [part]) :
      stepPartsFrom false [] cs = [part] ∧
        ∀ rest, stepPartsFrom false [] (cs ++ ' ' :: rest) =
          part :: stepPartsFrom false [] rest := by
    obtain ⟨hend, hrest⟩ := stepPartsFrom_word hquote hblank
    exact ⟨hend.trans hpart, fun rest ↦ by rw [hrest, hpart, List.singleton_append]⟩
  cases t with
  | word w => exact hword (w.notMem (by decide)) w.isBlank (partOfWord_literal w)
  | int i =>
    exact hword (i.notMem (by decide) (by decide)) i.isBlank (partOfWord_integer i)
  | string v =>
    refine ⟨?_, fun rest ↦ ?_⟩
    · rw [StepToken.text, stepPartsFrom, if_pos (beq_self_eq_true _),
        stepPartsFrom_quoted v.unquoted]
      rfl
    · rw [StepToken.text, List.cons_append, List.append_assoc, List.singleton_append,
        stepPartsFrom, if_pos (beq_self_eq_true _), stepPartsFrom_quoted v.unquoted, stepPartsFrom,
        if_neg (by decide), if_pos isBlank_space]
      rfl

/-- The parts of a step are its tokens. -/
theorem stepPartsFrom_join (tokens : List StepToken) :
    stepPartsFrom false [] (join [' '] (tokens.map StepToken.text)) =
      tokens.map StepToken.part := by
  induction tokens with
  | nil => rfl
  | cons t rest ih =>
    cases rest with
    | nil => simpa using (stepPartsFrom_token t).1
    | cons next others =>
      rw [List.map_cons, List.map_cons, join_cons_cons, List.append_assoc, List.singleton_append,
        (stepPartsFrom_token t).2, ← List.map_cons, ih]
      rfl

/-- Neither at its start nor at its end a token has white space. -/
theorem StepToken.ends_not_blank (t : StepToken) :
    t.text ≠ [] ∧ (∀ c ∈ t.text.head?, isBlank c = false) ∧
      ∀ c ∈ t.text.getLast?, isBlank c = false := by
  have hall {cs : List Char} (h : ∀ c ∈ cs, isBlank c = false) :
      (∀ c ∈ cs.head?, isBlank c = false) ∧ ∀ c ∈ cs.getLast?, isBlank c = false :=
    ⟨fun c hc ↦ h c (List.mem_of_head? hc), fun c hc ↦ h c (List.mem_of_getLast? hc)⟩
  cases t with
  | word w => exact ⟨w.nonempty, hall w.isBlank⟩
  | int i => exact ⟨i.text_ne_nil, hall i.isBlank⟩
  | string v =>
    refine ⟨List.cons_ne_nil _ _, ?_, ?_⟩
    · rintro c ⟨⟩
      decide
    · intro c hc
      rw [StepToken.text, ← List.cons_append, List.getLast?_concat] at hc
      obtain rfl := Option.some.inj hc
      decide

/-! ### Patterns -/

theorem literal_needs {text : List Char} {c : Char} (h : c ∈ text) : (literal text).Needs c := by
  intro before cs hc
  rw [literal, Chars.startsWith, afterStart?_eq_none h hc]
  rfl

theorem delimited_needs {opening : List Char} {c : Char} (h : c ∈ opening) (stop : Char)
    (closing : List Char) : (delimited opening stop closing).Needs c := by
  intro before cs hc
  rw [delimited, afterStart?_eq_none h hc]
  rfl

theorem numberGroup_needs : numberGroup.Needs '(' := by
  intro before cs hc
  rw [numberGroup, afterStart?_eq_none List.mem_cons_self hc]
  rfl

theorem optionalText_needs : optionalText.Needs '(' := by
  intro before cs hc
  rw [optionalText, afterStart?_eq_none List.mem_cons_self hc]
  rfl

theorem alternation_needs : alternation.Needs '/' := by
  intro before cs hc
  unfold alternation
  split
  · split
    next n _ =>
      have hmore : furtherOptions 0 (cs.drop n) = 0 := by
        cases hdrop : cs.drop n with
        | nil => rfl
        | cons c rest =>
          have hslash : c ≠ '/' := fun heq ↦
            hc (heq ▸ List.mem_of_mem_drop (hdrop ▸ List.mem_cons_self))
          rw [furtherOptions, if_neg (by simpa using hslash)]
      rw [hmore]
      rfl
    next => rfl
  · rfl

theorem resolveExpression_eq_self {cs : List Char} (hparen : '(' ∉ cs) (hslash : '/' ∉ cs) :
    resolveExpression cs = cs := by
  rw [resolveExpression, optionalText_needs.replaceOccurrences hparen,
    alternation_needs.replaceOccurrences hslash]

theorem typed_eq (type : String) : typed type = literal ('\x7b' :: (type.toList ++ ['\x7d'])) := by
  simp [typed]

theorem typed_needs (type : String) : (typed type).Needs '\x7b' := by
  rw [typed_eq]
  exact literal_needs List.mem_cons_self

/-- A typed parameter starts with a brace. -/
theorem typed_eq_none {c : Char} (h : c ≠ '\x7b') (type : String) (before : Option Char)
    (rest : List Char) : typed type before (c :: rest) = none := by
  rw [typed_eq, literal, Chars.startsWith, Chars.afterStart?, if_neg (Ne.symm h)]
  rfl

theorem anyOf_eq_none {recognisers : List Recogniser} {before : Option Char} {cs : List Char}
    (h : ∀ recognise ∈ recognisers, recognise before cs = none) :
    anyOf recognisers before cs = none :=
  List.findSome?_eq_none_iff.mpr h

theorem literal_append (text rest : List Char) (before : Option Char) :
    literal text before (text ++ rest) = some text.length := by
  rw [literal, Chars.startsWith, afterStart?_append]
  rfl

/-- A kind of parameter that the text cannot hold changes nothing. -/
theorem replacePlaceholder_of_needs {recognise : Recogniser} {c : Char} (h : recognise.Needs c)
    {text : List Char} (hc : c ∉ text) (count : Nat) (word : String) :
    replacePlaceholder (text, count) (recognise, word) = (text, count) := by
  unfold replacePlaceholder
  dsimp only
  rw [h.replaceOccurrences hc, h.occurrences hc, List.length_nil, Nat.add_zero]

theorem replacePlaceholder_of_rewrites {recognise : Recogniser} {word : String}
    {text result : List Char} {number : Nat}
    (h : recognise.Rewrites (" " ++ word ++ " ").toList text result number) (count : Nat) :
    replacePlaceholder (text, count) (recognise, word) = (result, count + number) := by
  unfold replacePlaceholder
  dsimp only
  rw [h.replaceOccurrences.1, h.replaceOccurrences.2]

theorem string_rewrites (t : StepToken) :
    (typed "string").Rewrites (" " ++ "text" ++ " ").toList t.pattern
      (t.render (" " ++ "text" ++ " ").toList "\x7bint\x7d".toList) t.isString.toNat := by
  have hself {cs : List Char} (h : '\x7b' ∉ cs) :
      (typed "string").Rewrites (" " ++ "text" ++ " ").toList cs cs 0 :=
    Recogniser.rewrites_self fun c hc before rest ↦
      typed_eq_none (fun heq ↦ h (heq ▸ hc)) "string" before rest
  cases t with
  | word w => exact hself (w.notMem (by decide))
  | string v =>
    have hne : "\x7bstring\x7d".toList ≠ [] := by decide
    exact Recogniser.rewrites_word hne fun before rest ↦ literal_append _ rest before
  | int i =>
    -- the brace is not that of a text parameter, and no other one follows
    have hrest : '\x7b' ∉ ['i', 'n', 't', '\x7d'] := by decide
    exact Recogniser.Rewrites.cons (fun _ _ ↦ rfl) (hself hrest)

theorem number_rewrites (t : StepToken) :
    (anyOf (["int", "float", "double", "long", "short", "byte", "biginteger", "bigdecimal"].map
      typed)).Rewrites (" " ++ "number" ++ " ").toList
        (t.render (" " ++ "text" ++ " ").toList "\x7bint\x7d".toList)
        (t.render (" " ++ "text" ++ " ").toList (" " ++ "number" ++ " ").toList) t.isInt.toNat := by
  have hself {cs : List Char} (h : '\x7b' ∉ cs) :
      (anyOf (["int", "float", "double", "long", "short", "byte", "biginteger", "bigdecimal"].map
        typed)).Rewrites (" " ++ "number" ++ " ").toList cs cs 0 := by
    refine Recogniser.rewrites_self fun c hc before rest ↦ anyOf_eq_none fun recognise hmem ↦ ?_
    obtain ⟨type, _, rfl⟩ := List.mem_map.mp hmem
    exact typed_eq_none (fun heq ↦ h (heq ▸ hc)) type before rest
  cases t with
  | word w => exact hself (w.notMem (by decide))
  | string v =>
    have htext : '\x7b' ∉ (" " ++ "text" ++ " ").toList := by decide
    exact hself htext
  | int i =>
    have hne : "\x7bint\x7d".toList ≠ [] := by decide
    exact Recogniser.rewrites_word hne fun _ _ ↦ rfl

/-- A text of tokens has literal characters, spaces and the characters of its parameters only. -/
theorem notMem_render {c : Char} {string int : List Char}
    (h : isLiteralChar c = false ∧ c ∉ ' ' :: (string ++ int)) (tokens : List StepToken) :
    c ∉ join [' '] (tokens.map (StepToken.render string int)) := by
  obtain ⟨hliteral, hother⟩ := h
  intro hc
  rcases mem_join hc with hc | ⟨part, hpart, hc⟩
  · exact hother (List.mem_singleton.mp hc ▸ List.mem_cons_self)
  · obtain ⟨t, _, rfl⟩ := List.mem_map.mp hpart
    cases t with
    | word w => exact w.notMem hliteral hc
    | string v => exact hother (List.mem_cons_of_mem _ (List.mem_append_left _ hc))
    | int i => exact hother (List.mem_cons_of_mem _ (List.mem_append_right _ hc))

/-- The cascade replaces the two kinds of parameters and finds nothing else. -/
theorem replace_placeholders (tokens : List StepToken) :
    placeholders.foldl replacePlaceholder (join [' '] (tokens.map StepToken.pattern), 0) =
      (join [' '] (tokens.map
        (StepToken.render (" " ++ "text" ++ " ").toList (" " ++ "number" ++ " ").toList)),
        tokens.countP StepToken.isString + tokens.countP StepToken.isInt) := by
  have hspace {recognise : Recogniser} {word : List Char}
      (h : ∀ before rest, recognise before (' ' :: rest) = none) :
      recognise.Rewrites word [' '] [' '] 0 :=
    Recogniser.rewrites_self fun c hc ↦ List.mem_singleton.mp hc ▸ h
  have hstrings := Recogniser.Rewrites.join
    (hspace fun before rest ↦ typed_eq_none (by decide) "string" before rest) string_rewrites tokens
  have hnumbers := Recogniser.Rewrites.join (hspace fun _ _ ↦ rfl) number_rewrites tokens
  have hparen : '(' ∉ join [' '] (tokens.map StepToken.pattern) :=
    notMem_render (by decide) tokens
  have hbrace : '\x7b' ∉ join [' '] (tokens.map (StepToken.render (" " ++ "text" ++ " ").toList
      (" " ++ "number" ++ " ").toList)) :=
    notMem_render (by decide) tokens
  have hparen' : '(' ∉ join [' '] (tokens.map (StepToken.render (" " ++ "text" ++ " ").toList
      (" " ++ "number" ++ " ").toList)) :=
    notMem_render (by decide) tokens
  simp only [placeholders, List.foldl_cons, List.foldl_nil]
  rw [replacePlaceholder_of_needs (delimited_needs (by decide) _ _) hparen,
    replacePlaceholder_of_needs (delimited_needs (by decide) _ _) hparen,
    replacePlaceholder_of_rewrites hstrings, replacePlaceholder_of_rewrites hnumbers,
    replacePlaceholder_of_needs (typed_needs _) hbrace,
    replacePlaceholder_of_needs (delimited_needs (by decide) _ _) hbrace,
    replacePlaceholder_of_needs numberGroup_needs hparen',
    replacePlaceholder_of_needs (delimited_needs (by decide) _ _) hparen', Nat.zero_add]

theorem LiteralWord.isPatternSymbol (w : LiteralWord) :
    ∀ c ∈ w.text, isPatternSymbol c = false := by
  intro c hc
  have hsymbols : ['^', '$', '\\', '?', '*', '+', '[', ']', '(', ')', '|'].any isLiteralChar =
      false := by decide
  cases hsymbol : Keyword.isPatternSymbol c with
  | false => rfl
  | true =>
    have hmem : c ∈ ['^', '$', '\\', '?', '*', '+', '[', ']', '(', ')', '|'] := by
      simpa [Keyword.isPatternSymbol, or_assoc] using hsymbol
    exact absurd (w.literal c hc) (List.any_eq_false.mp hsymbols c hmem)

/-- In a text without the symbols of regular expressions only quotes are dropped. -/
theorem cleanPattern_eq_filter {cs : List Char} (hquote : '"' ∉ cs)
    (hsymbol : ∀ c ∈ cs, isPatternSymbol c = false) :
    cleanPattern cs = cs.filter (· != '\x27') := by
  have hfilter : cs.filter (fun c ↦ c != '"' && c != '\x27') = cs.filter (· != '\x27') := by
    refine List.filter_congr fun c hc ↦ ?_
    have hne : c ≠ '"' := fun heq ↦ hquote (heq ▸ hc)
    rw [bne_iff_ne.mpr hne, Bool.true_and]
  rw [cleanPattern, hfilter]
  refine (List.map_congr_left fun c hc ↦ ?_).trans (List.map_id _)
  rw [hsymbol c (List.mem_of_mem_filter hc)]
  rfl

theorem cleanPattern_literal (w : LiteralWord) :
    cleanPattern w.text = w.text.filter (· != '\x27') :=
  cleanPattern_eq_filter (w.notMem (by decide)) w.isPatternSymbol

/-- Both names have the same words, token by token. -/
theorem words_token (t : StepToken) :
    words (cleanPattern (t.render (" " ++ "text" ++ " ").toList (" " ++ "number" ++ " ").toList)) =
      words (t.part.nameWord.filter (· != '\x27')) := by
  cases t with
  | word w => exact congrArg _ (cleanPattern_literal w)
  | string v =>
    have htext : words (cleanPattern (" " ++ "text" ++ " ").toList) =
        words ("text".toList.filter (· != '\x27')) := by decide
    exact htext
  | int i =>
    have hnumber : words (cleanPattern (" " ++ "number" ++ " ").toList) =
        words ("number".toList.filter (· != '\x27')) := by decide
    exact hnumber

theorem trim_pattern (tokens : List StepToken) :
    trim (join [' '] (tokens.map StepToken.pattern)) =
      join [' '] (tokens.map StepToken.pattern) := by
  have htoken (t : StepToken) : t.pattern ≠ [] ∧ ∀ c ∈ t.pattern, isBlank c = false := by
    cases t with
    | word w => exact ⟨w.nonempty, w.isBlank⟩
    | string v =>
      have hvisible : "\x7bstring\x7d".toList.any isBlank = false := by decide
      exact ⟨List.cons_ne_nil _ _, fun c hc ↦
        eq_false_of_ne_true (List.any_eq_false.mp hvisible c hc)⟩
    | int i =>
      have hvisible : "\x7bint\x7d".toList.any isBlank = false := by decide
      exact ⟨List.cons_ne_nil _ _, fun c hc ↦
        eq_false_of_ne_true (List.any_eq_false.mp hvisible c hc)⟩
  have hpart {part : List Char} (h : part ∈ tokens.map StepToken.pattern) :
      part ≠ [] ∧ ∀ c ∈ part, isBlank c = false := by
    obtain ⟨t, _, rfl⟩ := List.mem_map.mp h
    exact htoken t
  exact trim_join (fun _ h ↦ (hpart h).1) (fun _ h c hc ↦ (hpart h).2 c (List.mem_of_head? hc))
    (fun _ h c hc ↦ (hpart h).2 c (List.mem_of_getLast? hc))

theorem ofPattern_patternText (tokens : List StepToken) :
    ofPattern (patternText tokens) =
      ⟨String.ofList (titleChars (cleanPattern (join [' '] (tokens.map
        (StepToken.render (" " ++ "text" ++ " ").toList (" " ++ "number" ++ " ").toList))))),
        tokens.countP StepToken.isString + tokens.countP StepToken.isInt⟩ := by
  have hresolved : resolveExpression (join [' '] (tokens.map StepToken.pattern)) =
      join [' '] (tokens.map StepToken.pattern) :=
    resolveExpression_eq_self (notMem_render (by decide) tokens) (notMem_render (by decide) tokens)
  unfold ofPattern patternText
  rw [String.toList_ofList, trim_pattern]
  dsimp only
  rw [hresolved, ite_self, replace_placeholders]

theorem stepCall_stepText (tokens : List StepToken) :
    stepCall (stepText tokens) =
      ⟨String.ofList (titleChars ((join [' '] (tokens.map fun t ↦ t.part.nameWord)).filter
        (· != '\x27'))),
        (tokens.filterMap StepToken.value?).map String.ofList⟩ := by
  have htrim : trim (join [' '] (tokens.map StepToken.text)) =
      join [' '] (tokens.map StepToken.text) := by
    have hpart {part : List Char} (h : part ∈ tokens.map StepToken.text) :
        part ≠ [] ∧ (∀ c ∈ part.head?, isBlank c = false) ∧
          ∀ c ∈ part.getLast?, isBlank c = false := by
      obtain ⟨t, _, rfl⟩ := List.mem_map.mp h
      exact t.ends_not_blank
    exact trim_join (fun _ h ↦ (hpart h).1) (fun _ h ↦ (hpart h).2.1) (fun _ h ↦ (hpart h).2.2)
  have hvalue (t : StepToken) : t.part.value? = t.value? := by
    cases t <;> rfl
  unfold stepCall stepText
  rw [String.toList_ofList, htrim, stepPartsFrom_join]
  simp only [List.map_map, List.filterMap_map, Function.comp_def, hvalue]

theorem length_values (tokens : List StepToken) :
    (tokens.filterMap StepToken.value?).length =
      tokens.countP StepToken.isString + tokens.countP StepToken.isInt := by
  induction tokens with
  | nil => rfl
  | cons t rest ih =>
    rw [List.filterMap_cons, List.countP_cons, List.countP_cons]
    cases t with
    | word w => simpa [StepToken.value?, StepToken.isString, StepToken.isInt] using ih
    | string v =>
      simp only [StepToken.value?, StepToken.isString, StepToken.isInt, List.length_cons, ih,
        if_true, Bool.false_eq_true, if_false]
      omega
    | int i =>
      simp only [StepToken.value?, StepToken.isString, StepToken.isInt, List.length_cons, ih,
        if_true, Bool.false_eq_true, if_false]
      omega

/-- A step calls the keyword of the pattern that it fills in: it has the same name, and its
arguments are the values of the parameters, in their order. -/
theorem step_resolves_against_pattern (tokens : List StepToken) :
    (stepCall (stepText tokens)).name = (ofPattern (patternText tokens)).name ∧
      (stepCall (stepText tokens)).args = (tokens.filterMap StepToken.value?).map String.ofList ∧
      (stepCall (stepText tokens)).args.length = (ofPattern (patternText tokens)).placeholders := by
  rw [stepCall_stepText, ofPattern_patternText]
  refine ⟨?_, rfl, ?_⟩
  · have hstep (parts : List (List Char)) : words ((join [' '] parts).filter (· != '\x27')) =
        parts.flatMap fun part : List Char ↦ Chars.words (part.filter (· != '\x27')) := by
      have hspace : [' '].filter (· != '\x27') = [' '] := by decide
      rw [translate_join List.filter_nil (fun _ _ ↦ List.filter_append _ _) hspace, words_join,
        List.flatMap_map]
    have hpattern (parts : List (List Char)) : words (cleanPattern (join [' '] parts)) =
        parts.flatMap fun part ↦ Chars.words (cleanPattern part) := by
      have hspace : cleanPattern [' '] = [' '] := by decide
      rw [translate_join (f := cleanPattern) rfl (fun _ _ ↦ by simp [cleanPattern]) hspace,
        words_join, List.flatMap_map]
    simp only [titleChars, hstep, hpattern, List.flatMap_map, words_token]
  · exact (List.length_map _).trans (length_values tokens)

example :
    let tokens : List StepToken :=
      [.word ⟨['D', 'o', 'n', '\x27', 't'], by decide, List.all_eq_true.mp (by decide)⟩,
        .string ⟨['a', ' ', '7'], by decide⟩,
        .int ⟨true, ['3', '0'], by decide, List.all_eq_true.mp (by decide)⟩]
    patternText tokens = "Don\x27t \x7bstring\x7d \x7bint\x7d" ∧
      stepText tokens = "Don\x27t \"a 7\" -30" := by
  decide

end SuiteMigration.Keyword
