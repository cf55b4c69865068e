import SuiteMigration.Proofs.Java.Declaration

/-!
Annotations with one string literal. The literal may hold anything, brackets, quotes and comment
signs included: it is marked as a literal whatever follows the annotation. So the annotation ends
where it was written to end, and its value is the text that was escaped.
-/

set_option autoImplicit false
set_option relaxedAutoImplicit false

namespace SuiteMigration.Java

open SuiteMigration.Text

/-! ### String literals -/

/-- The inside of a string literal: backslashes, quotes and line feeds are escaped. -/
def escapeChars (cs : List Char) : List Char :=
  cs.flatMap fun c ↦
    if c == '\\' then ['\\', '\\'] else if c == '"' then ['\\', '"']
    else if c == '\n' then ['\\', 'n'] else [c]

/-- What an escaped text starts with, and the rest of it. -/
theorem escapeChars_cons_cases (c : Char) (cs : List Char) :
    (∃ d, d ≠ '\n' ∧ escapedChar d = c ∧ escapeChars (c :: cs) = '\\' :: d :: escapeChars cs) ∨
      (c ≠ '\\' ∧ c ≠ '"' ∧ c ≠ '\n') ∧ escapeChars (c :: cs) = c :: escapeChars cs := by
  simp only [escapeChars, List.flatMap_cons]
  by_cases hbackslash : c = '\\'
  · exact Or.inl ⟨'\\', by decide, hbackslash.symm, by simp [hbackslash]⟩
  by_cases hquote : c = '"'
  · exact Or.inl ⟨'"', by decide, hquote.symm, by simp [hquote]⟩
  by_cases hline : c = '\n'
  · exact Or.inl ⟨'n', by decide, hline.symm, by simp [hline]⟩
  · exact Or.inr ⟨⟨hbackslash, hquote, hline⟩, by simp [hbackslash, hquote, hline]⟩

def literalMarks (cs : List Char) : List Mark :=
  cs.map fun c ↦ ⟨c, .literal⟩

@[simp] theorem textOf_literalMarks (cs : List Char) : textOf (literalMarks cs) = cs := by
  simp [textOf, literalMarks, Function.comp_def]

theorem lexes_escaped (cs : List Char) :
    Lexes .string (escapeChars cs ++ ['"']) (literalMarks (escapeChars cs ++ ['"'])) .code := by
  intro rest
  induction cs with
  | nil =>
    change marksFrom true .string ('"' :: rest) = _
    rw [marksFrom]
    · rfl
    · exact fun _ _ heq ↦ absurd heq (by decide)
  | cons c more ih =>
    rcases escapeChars_cons_cases c more with
      ⟨d, _, _, hescape⟩ | ⟨⟨hbackslash, hquote, hline⟩, hescape⟩
    · rw [hescape, List.cons_append, List.cons_append, List.cons_append, List.cons_append,
        marksFrom, ih]
      rfl
    · have hinside : (c == '"' || c == '\n') = false := by simp [hquote, hline]
      rw [hescape, List.cons_append, List.cons_append, marksFrom, hinside]
      · rw [if_neg Bool.false_ne_true, ih]
        rfl
      · exact fun _ _ heq ↦ absurd heq hbackslash

/-- A string literal. -/
def quoted (cs : List Char) : List Char :=
  '"' :: (escapeChars cs ++ ['"'])

/-- A literal before a closing bracket is no text block, also if it is empty. -/
theorem lexes_quoted (cs : List Char) :
    Lexes .code (quoted cs ++ [')']) (literalMarks (quoted cs) ++ codeMarks [')']) .code := by
  intro rest
  have hclose : Lexes .code [')'] (codeMarks [')']) .code := lexes_plain (by decide)
  have hinside := (lexes_escaped cs).append hclose rest
  change marksFrom true .code ('"' :: (escapeChars cs ++ ['"'] ++ [')'] ++ rest)) =
    ⟨'"', .literal⟩ :: (literalMarks (escapeChars cs ++ ['"']) ++ codeMarks [')'] ++
      marksFrom true .code rest)
  -- two more quotes would open a text block
  have htriple (tail : List Char) :
      escapeChars cs ++ ['"'] ++ [')'] ++ rest ≠ '"' :: '"' :: tail := by
    intro heq
    cases cs with
    | nil => simp [escapeChars] at heq
    | cons c more =>
      rcases escapeChars_cons_cases c more with ⟨d, _, _, hescape⟩ | ⟨⟨_, hquote, _⟩, hescape⟩
      · rw [hescape] at heq
        simp at heq
      · rw [hescape] at heq
        exact hquote (List.cons.inj heq).1
  rw [← hinside, marksFrom_code_cons true (fun _ heq ↦ absurd heq (by decide))
    (fun _ heq ↦ absurd heq (by decide)) (fun tail _ heq ↦ htriple tail heq)]
  rfl

/-! ### The value of a literal -/

theorem literalBody?_escapeChars (cs rest : List Char) :
    literalBody? (escapeChars cs ++ '"' :: rest) = some (escapeChars cs) := by
  induction cs with
  | nil => rfl
  | cons c more ih =>
    rcases escapeChars_cons_cases c more with
      ⟨d, hline, _, hescape⟩ | ⟨⟨hbackslash, hquote, _⟩, hescape⟩
    · rw [hescape]
      simp [literalBody?, hline, ih]
    · rw [hescape, List.cons_append, literalBody?, ih, Option.map_some]
      · exact fun h ↦ absurd h hquote
      · exact fun _ _ h ↦ absurd h hbackslash
      · exact fun h ↦ absurd h hbackslash

theorem unescapeChars_escapeChars (cs : List Char) : unescapeChars (escapeChars cs) = cs := by
  induction cs with
  | nil => rfl
  | cons c more ih =>
    rcases escapeChars_cons_cases c more with ⟨d, _, hvalue, hescape⟩ | ⟨⟨hbackslash, _⟩, hescape⟩
    · rw [hescape, unescapeChars, hvalue, ih]
    · rw [hescape, unescapeChars, ih]
      exact fun _ _ h ↦ absurd h hbackslash

theorem firstLiteral?_quoted (cs : List Char) :
    firstLiteral? (String.ofList (quoted cs)) = some (String.ofList cs) := by
  simp [firstLiteral?, quoted, firstLiteralBody?, literalBody?_escapeChars,
    unescapeChars_escapeChars]

theorem trim_quoted (cs : List Char) : Chars.trim (quoted cs) = quoted cs := by
  have hquote : isBlank '"' = false := by decide
  refine Chars.trim_eq_self ?_ ?_
  · simpa [quoted] using hquote
  · rw [quoted, ← List.cons_append, List.getLast?_concat]
    simpa using hquote

/-! ### Annotations -/

def escape (value : String) : String :=
  String.ofList (escapeChars value.toList)

/-- The use of an annotation with one string. -/
def annotationText (name : Identifier) (value : String) : String :=
  "@" ++ name.text ++ "(\"" ++ escape value ++ "\")"

theorem toList_annotationText (name : Identifier) (value : String) :
    (annotationText name value).toList =
      '@' :: (name.chars ++ '(' :: (quoted value.toList ++ [')'])) := by
  unfold annotationText
  simp [Identifier.chars, quoted, escape]

def annotationMarks (name : Identifier) (value : String) : List Mark :=
  codeMarks ('@' :: (name.chars ++ ['('])) ++
    (literalMarks (quoted value.toList) ++ codeMarks [')'])

theorem lexes_annotationText (name : Identifier) (value : String) :
    Lexes .code (annotationText name value).toList (annotationMarks name value) .code := by
  have hname : ('@' :: (name.chars ++ ['('])).all isPlain = true := by
    have hchars : name.chars.all isPlain = true := by
      refine List.all_eq_true.mpr fun c hc ↦ ?_
      exact (nameClasses (name.isIdentifierChar c hc)).plain
    rw [List.all_cons, List.all_append, hchars]
    decide
  have := (lexes_plain hname).append (lexes_quoted value.toList)
  rw [toList_annotationText]
  simpa [annotationMarks] using this

theorem enclosed?_quoted (cs rest : List Char) :
    enclosed? '(' ')' ('(' :: (quoted cs ++ ')' :: rest)) = some ⟨quoted cs, rest⟩ := by
  have hbalanced : Balanced '(' ')' (literalMarks (quoted cs)) := by
    refine balanced_of_no_bracket fun mark hmark ↦ ?_
    obtain ⟨c, _, rfl⟩ := List.mem_map.mp hmark
    exact ⟨rfl, rfl⟩
  have hopen : Lexes .code ['('] (codeMarks ['(']) .code := lexes_plain (by decide)
  have hmarks : marks ('(' :: (quoted cs ++ ')' :: rest)) =
      ⟨'(', .code⟩ :: (literalMarks (quoted cs) ++ ⟨')', .code⟩ :: marks rest) := by
    simpa [codeMarks] using (hopen.append (lexes_quoted cs)).marks_eq rest
  simpa using enclosed?_eq_some (by decide) hbalanced hmarks

theorem readAnnotationUse_quoted (name : Identifier) (cs rest : List Char) :
    readAnnotationUse (name.chars ++ '(' :: (quoted cs ++ ')' :: rest)) =
      .ok (⟨name.text, String.ofList (quoted cs)⟩, rest) := by
  have hname : ∀ c ∈ name.chars, (isNameChar c || c == '.') = true := by
    intro c hc
    rw [(nameClasses (name.isIdentifierChar c hc)).name, Bool.true_or]
  obtain ⟨htake, hdrop⟩ := Chars.span_append hname (c := '(') (by decide)
    (quoted cs ++ ')' :: rest)
  have hsimple : simpleName name.chars = name.chars := by
    have hpoint : ∀ c ∈ name.chars.reverse, (c != '.') = true := by
      intro c hc
      simpa using ne_of_mem_of_not_mem (List.mem_reverse.mp hc) (name.notMem (by decide))
    rw [simpleName, List.takeWhile_eq_self_iff.mpr hpoint, List.reverse_reverse]
  have htrim (more : List Char) : Chars.trimStart ('(' :: more) = '(' :: more := rfl
  simp only [readAnnotationUse, htake, hdrop, htrim, enclosed?_quoted, trim_quoted, hsimple]
  simp [Identifier.chars]

/-- A header that starts with an annotation and goes on without quotes or further ones. -/
theorem splitAnnotations_annotated (name : Identifier) (value : String) {rest : String}
    (hquote : '"' ∉ rest.toList) (hsign : '@' ∉ rest.toList) :
    splitAnnotations (annotationText name value ++ rest) =
      .ok ⟨[⟨name.text, String.ofList (quoted value.toList)⟩], Text.collapse rest⟩ := by
  have hheader : (annotationText name value ++ rest).toList =
      '@' :: (name.chars ++ '(' :: (quoted value.toList ++ ')' :: rest.toList)) := by
    simp [toList_annotationText]
  have hstep (fuel : Nat) (found : List AnnotationUse) (before : List Char) :
      annotationsFrom (fuel + 1) found before
          ('@' :: (name.chars ++ '(' :: (quoted value.toList ++ ')' :: rest.toList))) =
        annotationsFrom fuel (⟨name.text, String.ofList (quoted value.toList)⟩ :: found) before
          rest.toList := by
    rw [annotationsFrom, if_neg (by decide), if_pos (by decide), readAnnotationUse_quoted]
    rfl
  have hfuel : rest.toList.length ≤
      ('@' :: (name.chars ++ '(' :: (quoted value.toList ++ ')' :: rest.toList))).length := by
    simp only [List.length_cons, List.length_append]
    omega
  rw [splitAnnotations, hheader, hstep, annotationsFrom_plain hquote hsign _ _ hfuel]
  rfl

end SuiteMigration.Java
