import SuiteMigration.Proofs.Keyword.Resolution
import SuiteMigration.Proofs.Text.Case

/-!
Patterns of plain words. A pattern without parameters is also the text of the steps that it matches,
so a step should call the keyword that the pattern names. The two readings part at words of two
kinds: a numeral is an argument of the step and a word of the pattern, and the symbols of regular
expressions that are left in plain words are characters of the step and spaces of the pattern.
-/

set_option autoImplicit false
set_option relaxedAutoImplicit false

namespace SuiteMigration.Keyword

open SuiteMigration.Text SuiteMigration.Chars

/-! ### Plain words -/

/-- The characters of parameters, groups, alternatives, escapes, anchors at the start, and quoted
texts. -/
def reservedChars : List Char :=
  ['\x7b', '\x7d', '(', ')', '[', ']', '/', '\\', '|', '^', '"']

/-- A word of a pattern without parameters. -/
structure PlainWord where
  text : List Char
  nonempty : text ≠ []
  visible : ∀ c ∈ text, isBlank c = false
  unreserved : ∀ c ∈ text, c ∉ reservedChars

/-- A word whose characters pass the test. -/
def PlainWord.ofText (text : List Char)
    (h : (!text.isEmpty && text.all fun c ↦ !isBlank c && !reservedChars.contains c) = true) :
    PlainWord where
  text := text
  nonempty := by
    rintro rfl
    cases h
  visible c hc := by
    have hchar := List.all_eq_true.mp (Bool.and_eq_true_iff.mp h).2 c hc
    simpa using (Bool.and_eq_true_iff.mp hchar).1
  unreserved c hc := by
    have hchar := List.all_eq_true.mp (Bool.and_eq_true_iff.mp h).2 c hc
    simpa using (Bool.and_eq_true_iff.mp hchar).2

/-- Words separated by single spaces. -/
def plainText (ws : List PlainWord) : List Char :=
  join [' '] (ws.map PlainWord.text)

/-- The symbols of regular expressions that a plain word can hold. -/
def plainSymbols : List Char :=
  ['$', '?', '*', '+']

def IsDigits (cs : List Char) : Prop :=
  cs ≠ [] ∧ ∀ c ∈ cs, isAsciiDigit c = true

/-- Digits, or digits with a point between them. -/
inductive IsUnsignedNumeral : List Char → Prop where
  | whole {digits : List Char} (h : IsDigits digits) : IsUnsignedNumeral digits
  | decimal {whole fraction : List Char} (hwhole : IsDigits whole) (hfraction : IsDigits fraction) :
      IsUnsignedNumeral (whole ++ '.' :: fraction)

/-- A number, perhaps after a minus sign. -/
def IsNumeral (word : List Char) : Prop :=
  IsUnsignedNumeral word ∨ ∃ unsigned, word = '-' :: unsigned ∧ IsUnsignedNumeral unsigned

theorem notMem_plainText {c : Char} (h : c ∈ reservedChars) (ws : List PlainWord) :
    c ∉ plainText ws := by
  intro hc
  rcases mem_join hc with hc | ⟨part, hpart, hc⟩
  · rw [List.mem_singleton.mp hc] at h
    exact absurd h (by decide)
  · obtain ⟨w, _, rfl⟩ := List.mem_map.mp hpart
    exact w.unreserved c hc h

theorem trim_plainText (ws : List PlainWord) : trim (plainText ws) = plainText ws := by
  have hpart {part : List Char} (h : part ∈ ws.map PlainWord.text) :
      part ≠ [] ∧ ∀ c ∈ part, isBlank c = false := by
    obtain ⟨w, _, rfl⟩ := List.mem_map.mp h
    exact ⟨w.nonempty, w.visible⟩
  exact trim_join (fun _ h ↦ (hpart h).1) (fun _ h c hc ↦ (hpart h).2 c (List.mem_of_head? hc))
    (fun _ h c hc ↦ (hpart h).2 c (List.mem_of_getLast? hc))

/-! ### The pattern -/

theorem anyOf_needs {recognisers : List Recogniser} {c : Char}
    (h : ∀ recognise ∈ recognisers, recognise.Needs c) : (anyOf recognisers).Needs c :=
  fun before cs hc ↦ anyOf_eq_none fun recognise hmem ↦ h recognise hmem before cs hc

/-- A text without braces and parentheses has no parameters. -/
theorem foldl_replacePlaceholder_eq_self {cs : List Char} (hbrace : '\x7b' ∉ cs)
    (hparen : '(' ∉ cs) : placeholders.foldl replacePlaceholder (cs, 0) = (cs, 0) := by
  have hnumber : (anyOf (["int", "float", "double", "long", "short", "byte", "biginteger",
      "bigdecimal"].map typed)).Needs '\x7b' := by
    refine anyOf_needs fun recognise hmem ↦ ?_
    obtain ⟨type, _, rfl⟩ := List.mem_map.mp hmem
    exact typed_needs type
  simp only [placeholders, List.foldl_cons, List.foldl_nil]
  rw [replacePlaceholder_of_needs (delimited_needs (by decide) _ _) hparen,
    replacePlaceholder_of_needs (delimited_needs (by decide) _ _) hparen,
    replacePlaceholder_of_needs (typed_needs _) hbrace,
    replacePlaceholder_of_needs hnumber hbrace,
    replacePlaceholder_of_needs (typed_needs _) hbrace,
    replacePlaceholder_of_needs (delimited_needs (by decide) _ _) hbrace,
    replacePlaceholder_of_needs numberGroup_needs hparen,
    replacePlaceholder_of_needs (delimited_needs (by decide) _ _) hparen]

/-- The name of a plain pattern: its words without apostrophes and without symbols. -/
theorem ofPattern_plainText (ws : List PlainWord) :
    ofPattern (String.ofList (plainText ws)) =
      ⟨String.ofList (titleChars (cleanPattern (plainText ws))), 0⟩ := by
  have hparen : '(' ∉ plainText ws := notMem_plainText (by decide) ws
  unfold ofPattern
  rw [String.toList_ofList, trim_plainText]
  dsimp only
  rw [resolveExpression_eq_self hparen (notMem_plainText (by decide) ws), ite_self,
    foldl_replacePlaceholder_eq_self (notMem_plainText (by decide) ws) hparen]

theorem notMem_cleanPattern {c : Char} (hsymbol : isPatternSymbol c = true) (cs : List Char) :
    c ∉ cleanPattern cs := by
  intro hc
  obtain ⟨d, _, heq⟩ := List.mem_map.mp hc
  split at heq
  next =>
    subst heq
    cases hsymbol
  next hd =>
    subst heq
    exact hd hsymbol

/-! ### Numerals -/

theorem IsDigits.notMem {cs : List Char} (h : IsDigits cs) {c : Char}
    (hc : isAsciiDigit c = false) : c ∉ cs := by
  intro hmem
  rw [h.2 c hmem] at hc
  cases hc

theorem IsDigits.any_head?_append {ds : List Char} (h : IsDigits ds) (rest : List Char) :
    (ds ++ rest).head?.any isAsciiDigit = true := by
  obtain ⟨c, more, rfl⟩ := List.exists_cons_of_ne_nil h.1
  exact h.2 c List.mem_cons_self

theorem IsDigits.getLast?_ne_point {ds : List Char} (h : IsDigits ds) : ds.getLast? ≠ some '.' :=
  fun heq ↦ h.notMem (by decide) (List.mem_of_getLast? heq)

theorem IsDigits.count_point {ds : List Char} (h : IsDigits ds) : ds.count '.' = 0 :=
  List.count_eq_zero_of_not_mem (h.notMem (by decide))

theorem IsUnsignedNumeral.any_head? {cs : List Char} (h : IsUnsignedNumeral cs) :
    cs.head?.any isAsciiDigit = true := by
  cases h with
  | whole hdigits =>
    have hfront := hdigits.any_head?_append []
    rwa [List.append_nil] at hfront
  | decimal hwhole _ => exact hwhole.any_head?_append _

theorem IsUnsignedNumeral.ne_minus {cs rest : List Char} (h : IsUnsignedNumeral cs) :
    cs ≠ '-' :: rest := by
  rintro rfl
  have hminus : isAsciiDigit '-' = true := h.any_head?
  exact absurd hminus (by decide)

theorem IsUnsignedNumeral.all {cs : List Char} (h : IsUnsignedNumeral cs) :
    cs.all (fun c ↦ isAsciiDigit c || c == '.') = true := by
  have hdigits {ds : List Char} (hds : IsDigits ds) :
      ds.all (fun c ↦ isAsciiDigit c || c == '.') = true :=
    List.all_eq_true.mpr fun c hc ↦ by rw [hds.2 c hc, Bool.true_or]
  cases h with
  | whole h => exact hdigits h
  | decimal hwhole hfraction =>
    rw [List.all_append, List.all_cons, hdigits hwhole, hdigits hfraction]
    rfl

theorem IsUnsignedNumeral.count_point_le {cs : List Char} (h : IsUnsignedNumeral cs) :
    cs.count '.' ≤ 1 := by
  cases h with
  | whole h =>
    rw [h.count_point]
    exact Nat.zero_le 1
  | decimal hwhole hfraction =>
    rw [List.count_append, List.count_cons_self, hwhole.count_point, hfraction.count_point]

theorem IsUnsignedNumeral.getLast?_ne_point {cs : List Char} (h : IsUnsignedNumeral cs) :
    cs.getLast? ≠ some '.' := by
  cases h with
  | whole h => exact h.getLast?_ne_point
  | decimal _ hfraction =>
    rw [List.getLast?_append_of_ne_nil _ (List.cons_ne_nil _ _),
      List.getLast?_cons_of_ne_nil hfraction.1]
    exact hfraction.getLast?_ne_point

/-- Digits with at most one point, which has digits before and behind it. -/
theorem isUnsignedNumeral_of_all {cs : List Char} (hne : cs ≠ [])
    (hall : ∀ c ∈ cs, isAsciiDigit c = true ∨ c = '.') (hhead : cs.head?.any isAsciiDigit = true)
    (hcount : cs.count '.' ≤ 1) (hlast : cs.getLast? ≠ some '.') : IsUnsignedNumeral cs := by
  by_cases hpoint : '.' ∈ cs
  · obtain ⟨whole, fraction, rfl⟩ := List.append_of_mem hpoint
    rw [List.count_append, List.count_cons_self] at hcount
    have hwhole : '.' ∉ whole := List.count_eq_zero.mp (by omega)
    have hfraction : '.' ∉ fraction := List.count_eq_zero.mp (by omega)
    refine .decimal ⟨?_, fun c hc ↦ ?_⟩ ⟨?_, fun c hc ↦ ?_⟩
    · rintro rfl
      cases hhead
    · exact (hall c (by simp [hc])).resolve_right fun heq ↦ hwhole (heq ▸ hc)
    · rintro rfl
      exact hlast (by simp)
    · exact (hall c (by simp [hc])).resolve_right fun heq ↦ hfraction (heq ▸ hc)
  · exact .whole ⟨hne, fun c hc ↦ (hall c hc).resolve_right fun heq ↦ hpoint (heq ▸ hc)⟩

theorem isUnsignedNumeral_iff (cs : List Char) :
    (!cs.isEmpty && cs.all (fun c ↦ isAsciiDigit c || c == '.') && cs.head?.any isAsciiDigit &&
      decide (cs.count '.' ≤ 1) && cs.getLast? != some '.') = true ↔ IsUnsignedNumeral cs := by
  constructor
  · intro h
    simp only [Bool.and_eq_true, Bool.not_eq_true', decide_eq_true_eq, bne_iff_ne, ne_eq,
      List.isEmpty_eq_false_iff, List.all_eq_true, Bool.or_eq_true, beq_iff_eq] at h
    obtain ⟨⟨⟨⟨hne, hall⟩, hhead⟩, hcount⟩, hlast⟩ := h
    exact isUnsignedNumeral_of_all hne hall hhead hcount hlast
  · intro h
    have hne : cs ≠ [] := by
      rintro rfl
      cases h.any_head?
    rw [h.all, h.any_head?, decide_eq_true h.count_point_le, bne_iff_ne.mpr h.getLast?_ne_point,
      List.isEmpty_eq_false_iff.mpr hne]
    rfl

theorem isStepNumber_iff (word : List Char) : isStepNumber word = true ↔ IsNumeral word := by
  unfold isStepNumber
  dsimp only
  rw [isUnsignedNumeral_iff]
  split
  next rest =>
    refine ⟨fun h ↦ Or.inr ⟨rest, rfl, h⟩, ?_⟩
    rintro (h | ⟨unsigned, heq, h⟩)
    · exact absurd rfl h.ne_minus
    · rwa [(List.cons.inj heq).2]
  next hminus =>
    refine ⟨Or.inl, ?_⟩
    rintro (h | ⟨unsigned, rfl, h⟩)
    · exact h
    · exact absurd rfl (hminus unsigned)

/-! ### The step -/

theorem stepPartsFrom_plainText (ws : List PlainWord) :
    stepPartsFrom false [] (plainText ws) = ws.flatMap fun w ↦ partOfWord w.text := by
  have hword (w : PlainWord) := stepPartsFrom_word
    (fun h ↦ w.unreserved '"' h (by decide)) w.visible
  induction ws with
  | nil => rfl
  | cons w rest ih =>
    cases rest with
    | nil => simpa [plainText] using (hword w).1
    | cons next others =>
      rw [List.flatMap_cons, ← ih, ← (hword w).2]
      simp [plainText]

/-- The part of a step that a plain word becomes. -/
def PlainWord.part (w : PlainWord) : StepPart :=
  if isStepNumber w.text then .argument "number" w.text else .word w.text

theorem stepParts_plainText (ws : List PlainWord) :
    stepPartsFrom false [] (trim (plainText ws)) = ws.map PlainWord.part := by
  have hpart (w : PlainWord) : partOfWord w.text = [w.part] := by
    have hne : w.text.isEmpty = false := by simpa using w.nonempty
    rw [partOfWord, hne, if_neg Bool.false_ne_true, PlainWord.part]
    split <;> rfl
  rw [trim_plainText, stepPartsFrom_plainText, List.map_eq_flatMap]
  exact List.flatMap_congr fun w _ ↦ hpart w

/-- A plain text has no arguments exactly if none of its words is a numeral. -/
theorem args_stepCall_plainText_eq_nil_iff (ws : List PlainWord) :
    (stepCall (String.ofList (plainText ws))).args = [] ↔ ∀ w ∈ ws, ¬ IsNumeral w.text := by
  unfold stepCall
  dsimp only
  rw [String.toList_ofList, stepParts_plainText, List.map_eq_nil_iff, List.filterMap_eq_nil_iff,
    List.forall_mem_map]
  refine forall₂_congr fun w _ ↦ ?_
  rw [← isStepNumber_iff, PlainWord.part]
  split <;> simp_all [StepPart.value?]

theorem name_stepCall_plainText {ws : List PlainWord} (h : ∀ w ∈ ws, ¬ IsNumeral w.text) :
    (stepCall (String.ofList (plainText ws))).name =
      String.ofList (titleChars ((plainText ws).filter (· != '\x27'))) := by
  have hwords : ws.map (fun w ↦ w.part.nameWord) = ws.map PlainWord.text := by
    refine List.map_congr_left fun w hw ↦ ?_
    rw [PlainWord.part, if_neg fun hnumber ↦ h w hw ((isStepNumber_iff _).mp hnumber)]
    rfl
  unfold stepCall
  dsimp only
  rw [String.toList_ofList, stepParts_plainText, List.map_map]
  exact congrArg (fun parts ↦ String.ofList (titleChars ((join [' '] parts).filter (· != '\x27'))))
    hwords

/-! ### Both -/

theorem isPatternSymbol_of_plain {w : PlainWord} {c : Char} (hc : c ∈ w.text) :
    isPatternSymbol c = true ↔ c ∈ plainSymbols := by
  have hreserved := w.unreserved c hc
  simp only [reservedChars, List.mem_cons, List.not_mem_nil, or_false, not_or] at hreserved
  simp [isPatternSymbol, plainSymbols, hreserved, or_assoc]

/-- A plain text is a call of the keyword that it names as a pattern, without arguments, exactly if
none of its words is a numeral or holds a symbol of regular expressions. -/
theorem plain_pattern_resolves_iff (ws : List PlainWord) :
    (stepCall (String.ofList (plainText ws))).name =
          (ofPattern (String.ofList (plainText ws))).name ∧
        (stepCall (String.ofList (plainText ws))).args = [] ↔
      ∀ w ∈ ws, ¬ IsNumeral w.text ∧ ∀ c ∈ w.text, c ∉ plainSymbols := by
  rw [args_stepCall_plainText_eq_nil_iff, ofPattern_plainText]
  constructor
  · rintro ⟨hname, hnumerals⟩ w hw
    refine ⟨hnumerals w hw, fun c hc hsymbol ↦ ?_⟩
    rw [name_stepCall_plainText hnumerals, String.ofList_inj] at hname
    -- the symbol is a character of the one name and not of the other
    have hfacts : plainSymbols.all (fun d ↦ decide (isBlank d = false ∧ d ∈ upperChar d ∧
        (d != '\x27') = true ∧ d.toNat ≠ 0 ∧ d.toNat < 65 ∧ d ≠ ' ')) = true := by decide +kernel
    obtain ⟨hblank, hupper, hquote, hzero, hletter, hspace⟩ :=
      of_decide_eq_true (List.all_eq_true.mp hfacts c hsymbol)
    have hmem : c ∈ titleChars ((plainText ws).filter (· != '\x27')) :=
      mem_titleChars (List.mem_filter.mpr
        ⟨mem_join_of_mem (List.mem_map_of_mem hw) hc [' '], hquote⟩) hblank hupper
    rw [hname] at hmem
    rcases mem_titleChars_cases hmem hzero hletter with heq | ⟨hclean, _⟩
    · exact hspace heq
    · exact notMem_cleanPattern ((isPatternSymbol_of_plain hc).mpr hsymbol) _ hclean
  · intro h
    have hnumerals : ∀ w ∈ ws, ¬ IsNumeral w.text := fun w hw ↦ (h w hw).1
    refine ⟨?_, hnumerals⟩
    rw [name_stepCall_plainText hnumerals, cleanPattern_eq_filter (notMem_plainText (by decide) ws)]
    intro c hc
    rcases mem_join hc with hc | ⟨part, hpart, hc⟩
    · rw [List.mem_singleton.mp hc]
      decide
    · obtain ⟨w, hw, rfl⟩ := List.mem_map.mp hpart
      exact Bool.eq_false_iff.mpr fun hsymbol ↦
        (h w hw).2 c hc ((isPatternSymbol_of_plain hc).mp hsymbol)

/-- The number in a plain pattern is an argument of the step and a word of the keyword. -/
theorem numeral_of_pattern_becomes_argument :
    let ws : List PlainWord := [.ofText ['b', 'u', 'y'] rfl, .ofText ['5'] rfl]
    String.ofList (plainText ws) = "buy 5" ∧
      stepCall "buy 5" = ⟨"Buy Number", ["5"]⟩ ∧ ofPattern "buy 5" = ⟨"Buy 5", 0⟩ := by
  decide +kernel

end SuiteMigration.Keyword
