import SuiteMigration.Java.Delimiter
import SuiteMigration.Java.Statement
import SuiteMigration.Proofs.Java.Region

/-!
Where statements end. The reading for statements knows no escapes in text blocks, the reading for
brackets does. The two agree up to the first text block with a backslash before three quotes: there
the first one leaves the block and the other stays in it. Every statement that ends before such a
place ends at a character that is code for both.
-/

set_option autoImplicit false
set_option relaxedAutoImplicit false

namespace SuiteMigration.Java

open SuiteMigration.Text

/-! ### Ends of statements -/

/-- The end of a statement: the statement, if it is not empty, and the byte position and the
character at which it ends. -/
structure Closing where
  statement : Option Statement
  position : Nat
  char : Char
  deriving DecidableEq, Repr

/-- Takes up a mark that does not end the statement. -/
def Pending.read (p : Pending) (offset : Nat) (mark : Mark) : Pending :=
  match mark.kind with
  | .comment => p
  | .lineEnd | .blockEnd => p.push ' '
  | .literal => (p.begin offset).push mark.char
  | .code =>
      let nested := p.nest mark.char
      (if isAsciiBlank mark.char then nested else nested.begin offset).push mark.char

/-- The ends of statements from a mark at byte `offset` on, and the statement that is left when the
text ends. -/
def closingsFrom : Nat → Pending → List Mark → List Closing × Option Statement
  | _, p, [] => ([], p.statement?)
  | offset, p, mark :: rest =>
      let next := offset + mark.char.utf8Size
      if mark.kind == .code && p.endsAt mark.char then
        let (closings, last) := closingsFrom next {} rest
        (⟨p.statement?, offset, mark.char⟩ :: closings, last)
      else closingsFrom next (p.read offset mark) rest

/-- The ends of the statements of a method body. -/
def closings (body : String) : List Closing × Option Statement :=
  closingsFrom 0 {} (marksFrom false .code body.toList)

/-- Statements are what stands before the ends, and at the end of the text. -/
theorem statementsFrom_eq (offset : Nat) (p : Pending) (ms : List Mark) :
    statementsFrom offset p ms =
      (closingsFrom offset p ms).1.filterMap Closing.statement ++
        (closingsFrom offset p ms).2.toList := by
  induction ms generalizing offset p with
  | nil => rfl
  | cons mark rest ih =>
    obtain ⟨c, kind⟩ := mark
    unfold statementsFrom closingsFrom
    cases kind with
    | code =>
      have hcode : (MarkKind.code == MarkKind.code && p.endsAt c) = p.endsAt c := rfl
      dsimp only
      rw [hcode]
      cases p.endsAt c with
      | true =>
        rw [if_pos rfl, if_pos rfl, ih]
        cases p.statement? <;> rfl
      | false => exact ih _ _
    | _ => exact ih _ _

theorem char_of_endsAt {p : Pending} {c : Char} (h : p.endsAt c = true) :
    c = ';' ∨ c = '\x7b' ∨ c = '\x7d' := by
  simp only [Pending.endsAt, Bool.and_eq_true, Bool.or_eq_true, beq_iff_eq] at h
  obtain ⟨⟨⟨(rfl | rfl) | rfl, _⟩, _⟩, _⟩ := h <;> simp

/-- A statement ends at a semicolon or a brace that is marked as code. -/
theorem mark_of_mem_closingsFrom {offset : Nat} {p : Pending} {ms : List Mark} {closing : Closing}
    (h : closing ∈ (closingsFrom offset p ms).1) :
    (closing.char = ';' ∨ closing.char = '\x7b' ∨ closing.char = '\x7d') ∧
      ∃ before after, ms = before ++ ⟨closing.char, .code⟩ :: after ∧
        closing.position = offset + Chars.byteSize (textOf before) := by
  induction ms generalizing offset p with
  | nil => cases h
  | cons mark rest ih =>
    have hlater {next : Pending}
        (hmem : closing ∈ (closingsFrom (offset + mark.char.utf8Size) next rest).1) :
        (closing.char = ';' ∨ closing.char = '\x7b' ∨ closing.char = '\x7d') ∧
          ∃ before after, mark :: rest = before ++ ⟨closing.char, .code⟩ :: after ∧
            closing.position = offset + Chars.byteSize (textOf before) := by
      obtain ⟨hchar, before, after, rfl, hposition⟩ := ih hmem
      refine ⟨hchar, mark :: before, after, rfl, ?_⟩
      rw [hposition, textOf_cons, Chars.byteSize, Nat.add_assoc]
    unfold closingsFrom at h
    dsimp only at h
    split at h
    next hends =>
      rw [Bool.and_eq_true, beq_iff_eq] at hends
      rcases List.mem_cons.mp h with rfl | hmem
      · obtain ⟨c, kind⟩ := mark
        obtain rfl : kind = .code := hends.1
        exact ⟨char_of_endsAt hends.2, [], rest, rfl, rfl⟩
      · exact hlater hmem
    next => exact hlater h

/-! ### Code bytes -/

theorem codeBytes_zero (text : String) :
    codeBytes text 0 = codeBytesFrom 0 (marks text.toList) := by
  unfold codeBytes
  cases text.toList <;> rfl

/-- A character of one byte that is marked as code is among the code bytes. -/
theorem mem_codeBytesFrom {c : Char} {byte : UInt8} (hbyte : String.utf8EncodeChar c = [byte])
    (offset : Nat) (before after : List Mark) :
    (offset + Chars.byteSize (textOf before), byte) ∈
      codeBytesFrom offset (before ++ ⟨c, .code⟩ :: after) := by
  induction before generalizing offset with
  | nil =>
    refine List.mem_append_left _ ?_
    rw [hbyte]
    exact List.mem_singleton_self _
  | cons mark rest ih =>
    have hrest := ih (offset + mark.char.utf8Size)
    rw [Nat.add_assoc] at hrest
    rw [List.cons_append, codeBytesFrom]
    split
    · exact List.mem_append_right _ hrest
    · exact hrest

/-! ### Two readings of text blocks -/

/-- The readings with and without escapes in text blocks have the same marks up to a backslash
before three quotes in a text block. The first goes on in the block after an escaped quote, the
second in code after the three quotes. -/
structure PartsAt (region : Region) (cs before rest : List Char) : Prop where
  text_eq : cs = before ++ '\\' :: '"' :: '"' :: '"' :: rest
  marks_eq : ∃ shared, textOf shared = before ∧
    marksFrom true region cs = shared ++ ⟨'\\', .literal⟩ :: ⟨'"', .literal⟩ ::
      marksFrom true .textBlock ('"' :: '"' :: rest) ∧
    marksFrom false region cs = shared ++ ⟨'\\', .literal⟩ :: ⟨'"', .literal⟩ :: ⟨'"', .literal⟩ ::
      ⟨'"', .literal⟩ :: marksFrom false .code rest

/-- The two readings of a text agree, or they part somewhere. -/
def AgreesOrParts (region : Region) (cs : List Char) : Prop :=
  marksFrom false region cs = marksFrom true region cs ∨
    ∃ before rest, PartsAt region cs before rest

/-- Characters in front that both readings mark alike change nothing. -/
theorem AgreesOrParts.prepend {region middle : Region} {cs : List Char}
    (h : AgreesOrParts middle cs) (front : List Mark)
    (hfront : ∀ blockEscapes, marksFrom blockEscapes region (textOf front ++ cs) =
      front ++ marksFrom blockEscapes middle cs) :
    AgreesOrParts region (textOf front ++ cs) := by
  obtain hsame | ⟨before, rest, htext, shared, hshared, hkept, hleft⟩ := h
  · exact Or.inl (by rw [hfront, hfront, hsame])
  · refine Or.inr ⟨textOf front ++ before, rest, by rw [htext, List.append_assoc],
      front ++ shared, by rw [textOf_append, hshared], ?_, ?_⟩
    · rw [hfront, hkept, List.append_assoc]
    · rw [hfront, hleft, List.append_assoc]

theorem AgreesOrParts.cons {region middle : Region} {c : Char} {cs : List Char}
    (h : AgreesOrParts middle cs) (kind : MarkKind)
    (hcons : ∀ blockEscapes, marksFrom blockEscapes region (c :: cs) =
      ⟨c, kind⟩ :: marksFrom blockEscapes middle cs) :
    AgreesOrParts region (c :: cs) :=
  h.prepend [⟨c, kind⟩] hcons

/-- Without escapes a character of a text block is passed alone, unless it is the first of three
quotes. -/
theorem marksFrom_false_textBlock {c : Char} {cs : List Char}
    (h : ∀ rest, c = '"' → cs = '"' :: '"' :: rest → False) :
    marksFrom false .textBlock (c :: cs) = ⟨c, .literal⟩ :: marksFrom false .textBlock cs := by
  by_cases hc : c = '\\'
  · subst hc
    cases cs with
    | nil => rfl
    | cons d more => rfl
  · rw [marksFrom]
    · exact h
    · exact fun _ _ heq ↦ absurd heq hc

/-- The readings go the same way from every region until they part. -/
theorem agreesOrParts (region : Region) (cs : List Char) : AgreesOrParts region cs := by
  generalize hescapes : true = blockEscapes
  -- both readings take the same sequence at the start of the text, except that an escape in a text
  -- block (case13) is two characters for the one and a single backslash for the other
  fun_induction marksFrom blockEscapes region cs with
  | case1 region => exact Or.inl (by simp)
  | case2 rest ih => exact ih.prepend [⟨'/', .comment⟩, ⟨'/', .comment⟩] fun _ ↦ rfl
  | case3 rest ih => exact ih.prepend [⟨'/', .comment⟩, ⟨'*', .comment⟩] fun _ ↦ rfl
  | case4 rest ih =>
    exact ih.prepend [⟨'"', .literal⟩, ⟨'"', .literal⟩, ⟨'"', .literal⟩] fun _ ↦ rfl
  | case5 c rest hline hblock htriple hquote ih =>
    refine ih.cons .literal fun blockEscapes ↦ ?_
    exact (marksFrom_code_cons blockEscapes hline hblock htriple).trans (if_pos hquote)
  | case6 c rest hline hblock htriple hquote hcharacter ih =>
    refine ih.cons .literal fun blockEscapes ↦ ?_
    exact (marksFrom_code_cons blockEscapes hline hblock htriple).trans
      ((if_neg hquote).trans (if_pos hcharacter))
  | case7 c rest hline hblock htriple hquote hcharacter ih =>
    refine ih.cons .code fun blockEscapes ↦ ?_
    exact (marksFrom_code_cons blockEscapes hline hblock htriple).trans
      ((if_neg hquote).trans (if_neg hcharacter))
  | case8 c rest ih => exact ih.prepend [⟨'\\', .literal⟩, ⟨c, .literal⟩] fun _ ↦ rfl
  | case9 c rest hescape ih =>
    refine ih.cons .literal fun blockEscapes ↦ ?_
    rw [marksFrom]
    exact hescape
  | case10 c rest ih => exact ih.prepend [⟨'\\', .literal⟩, ⟨c, .literal⟩] fun _ ↦ rfl
  | case11 c rest hescape ih =>
    refine ih.cons .literal fun blockEscapes ↦ ?_
    rw [marksFrom]
    exact hescape
  | case12 rest ih =>
    exact ih.prepend [⟨'"', .literal⟩, ⟨'"', .literal⟩, ⟨'"', .literal⟩] fun _ ↦ rfl
  | case13 c rest hblock ih =>
    by_cases hquotes : ∃ more, c = '"' ∧ rest = '"' :: '"' :: more
    · obtain ⟨more, rfl, rfl⟩ := hquotes
      exact Or.inr ⟨[], more, rfl, [], rfl, rfl, rfl⟩
    · have hpassed : marksFrom false .textBlock (c :: rest) =
          ⟨c, .literal⟩ :: marksFrom false .textBlock rest :=
        marksFrom_false_textBlock fun more hc hrest ↦ hquotes ⟨more, hc, hrest⟩
      refine ih.prepend [⟨'\\', .literal⟩, ⟨c, .literal⟩] fun blockEscapes ↦ ?_
      cases blockEscapes with
      | true => rfl
      | false => exact congrArg (⟨'\\', .literal⟩ :: ·) hpassed
  | case14 c rest hnone ih => exact absurd hescapes.symm hnone
  | case15 c rest htriple hescape ih =>
    refine ih.cons .literal fun blockEscapes ↦ ?_
    rw [marksFrom]
    · exact htriple
    · exact hescape
  | case16 c rest hline ih =>
    refine ih.cons .lineEnd fun blockEscapes ↦ ?_
    rw [marksFrom, if_pos hline]
  | case17 c rest hline ih =>
    refine ih.cons .comment fun blockEscapes ↦ ?_
    rw [marksFrom, if_neg hline]
  | case18 rest ih => exact ih.prepend [⟨'*', .comment⟩, ⟨'/', .blockEnd⟩] fun _ ↦ rfl
  | case19 c rest hclose ih =>
    refine ih.cons .comment fun blockEscapes ↦ ?_
    rw [marksFrom]
    exact hclose

/-! ### Ends of statements in code -/

theorem byteSize_append (cs ds : List Char) :
    Chars.byteSize (cs ++ ds) = Chars.byteSize cs + Chars.byteSize ds := by
  induction cs with
  | nil => exact (Nat.zero_add _).symm
  | cons c rest ih => rw [List.cons_append, Chars.byteSize, ih, Chars.byteSize, Nat.add_assoc]

/-- A mark that is not among those in front stands behind them. -/
theorem exists_append_of_not_mem (front : List Mark) {others before after : List Mark} {mark : Mark}
    (h : front ++ others = before ++ mark :: after) (hmark : mark ∉ front) :
    ∃ between, before = front ++ between := by
  rcases List.append_eq_append_iff.mp h with ⟨between, hbefore, _⟩ | ⟨more, hfront, hmore⟩
  · exact ⟨between, hbefore⟩
  · cases more with
    | nil => exact ⟨[], by rw [hfront, List.append_nil, List.append_nil]⟩
    | cons first rest =>
      obtain rfl : mark = first := (List.cons.inj hmore).1
      exact absurd (hfront ▸ List.mem_append_right before List.mem_cons_self) hmark

/-- A character that is code without escapes is code with them too, or it stands behind the place
where the two readings part. -/
theorem PartsAt.code_or_behind {cs before rest : List Char} (h : PartsAt .code cs before rest)
    {c : Char} {front back : List Mark}
    (hcode : marksFrom false .code cs = front ++ ⟨c, .code⟩ :: back) :
    (∃ others, marks cs = front ++ ⟨c, .code⟩ :: others) ∨
      Chars.byteSize before + 4 ≤ Chars.byteSize (textOf front) := by
  obtain ⟨_, shared, rfl, hkept, hleft⟩ := h
  rcases List.append_eq_append_iff.mp (hleft.symm.trans hcode) with
    ⟨between, rfl, htail⟩ | ⟨more, rfl, htail⟩
  · -- behind the shared marks stand the backslash and the quotes, which are no code
    right
    obtain ⟨inner, rfl⟩ := exists_append_of_not_mem
      [⟨'\\', .literal⟩, ⟨'"', .literal⟩, ⟨'"', .literal⟩, ⟨'"', .literal⟩] htail (by simp)
    rw [textOf_append, textOf_append, byteSize_append, byteSize_append]
    exact Nat.add_le_add_left (Nat.le_add_right 4 _) _
  · cases more with
    | nil => cases congrArg Mark.kind (List.cons.inj htail).1
    | cons first others =>
      obtain rfl : ⟨c, .code⟩ = first := (List.cons.inj htail).1
      exact Or.inl ⟨_, hkept.trans (List.append_assoc _ _ _)⟩

/-- The statements of a method body are what stands before their ends, and at the end of the text.
Each of them ends at a semicolon or a brace that is code for the brackets as well, unless it stands
behind a text block with a backslash before three quotes, at which the two readings part. -/
theorem statement_ends_in_code (body : String) :
    statements body = (closings body).1.filterMap Closing.statement ++ (closings body).2.toList ∧
      ∀ closing ∈ (closings body).1,
        (closing.char = ';' ∨ closing.char = '\x7b' ∨ closing.char = '\x7d') ∧
          ((closing.position, closing.char.toUInt8) ∈ codeBytes body 0 ∨
            ∃ before rest, PartsAt .code body.toList before rest ∧
              Chars.byteSize before + 4 ≤ closing.position) := by
  refine ⟨statementsFrom_eq 0 {} _, fun closing hclosing ↦ ?_⟩
  obtain ⟨hchar, front, back, hmarks, hposition⟩ := mark_of_mem_closingsFrom hclosing
  have hbyte : String.utf8EncodeChar closing.char = [closing.char.toUInt8] := by
    obtain hchar | hchar | hchar := hchar <;> rw [hchar] <;> rfl
  have hcode {others : List Mark}
      (hread : marks body.toList = front ++ ⟨closing.char, .code⟩ :: others) :
      (closing.position, closing.char.toUInt8) ∈ codeBytes body 0 := by
    rw [codeBytes_zero, hread, hposition]
    exact mem_codeBytesFrom hbyte 0 front others
  refine ⟨hchar, ?_⟩
  obtain hsame | ⟨before, rest, hparts⟩ := agreesOrParts .code body.toList
  · exact Or.inl (hcode (hsame.symm.trans hmarks))
  · obtain ⟨others, hread⟩ | hbehind := hparts.code_or_behind hmarks
    · exact Or.inl (hcode hread)
    · refine Or.inr ⟨before, rest, hparts, ?_⟩
      rw [hposition, Nat.zero_add]
      exact hbehind

/-- In a text block that quotes a text block, a statement ends inside a literal: the first one at
the semicolon at byte 18, and the rest of the block becomes a statement of its own. -/
theorem statement_end_in_text_block :
    statements "String s = \"\"\"\\\"\"\";\"\"\";" =
        [⟨0, "String s = \"\"\"\\\"\"\""⟩, ⟨19, "\"\"\";"⟩] ∧
      ¬ ∀ closing ∈ (closings "String s = \"\"\"\\\"\"\";\"\"\";").1,
        (closing.position, closing.char.toUInt8) ∈
          codeBytes "String s = \"\"\"\\\"\"\";\"\"\";" 0 := by
  decide +kernel

end SuiteMigration.Java
