import SuiteMigration.Proofs.Robot.Argument

/-!
Cutting expressions into operands. A reader cuts at the plus signs outside literals, and also at a
control character wherever it stands; another control character makes it give up. A literal that is
cut leaves a piece whose first quote closes it or is escaped, and such a piece is never converted
exactly.
-/

set_option autoImplicit false
set_option relaxedAutoImplicit false

namespace SuiteMigration.Robot

open SuiteMigration.Text SuiteMigration.Java

/-! ### Reading without joints -/

/-- A character that joins, separates or encloses operands. -/
def isJoint (c : Char) : Bool :=
  c == ',' || c == '+' || c == '(' || c == ')'

/-- Reading a text leads from one state to another, and there is no joint outside literals. -/
inductive Reads : Quotation → List Char → Quotation → Prop where
  | nil {q : Quotation} : Reads q [] q
  | cons {q r : Quotation} {c : Char} {rest : List Char} (hc : q = .outside → isJoint c = false)
      (hrest : Reads (q.next (· == '"') c) rest r) : Reads q (c :: rest) r

/-- Inside a literal, every character is read. -/
theorem Reads.cons_of_ne {q r : Quotation} {c : Char} {rest : List Char} (hq : q ≠ .outside)
    (hrest : Reads (q.next (· == '"') c) rest r) : Reads q (c :: rest) r :=
  .cons (fun h ↦ absurd h hq) hrest

theorem Reads.append {q r s : Quotation} {cs ds : List Char} (hfirst : Reads q cs r)
    (hsecond : Reads r ds s) : Reads q (cs ++ ds) s := by
  induction hfirst with
  | nil => exact hsecond
  | cons hc _ ih => exact .cons hc (ih hsecond)

theorem reads_outside {cs : List Char} (h : ∀ c ∈ cs, isJoint c = false ∧ c ≠ '"') :
    Reads .outside cs .outside := by
  induction cs with
  | nil => exact .nil
  | cons c rest ih =>
    obtain ⟨⟨hjoint, hquote⟩, hrest⟩ := List.forall_mem_cons.mp h
    refine .cons (fun _ ↦ hjoint) ?_
    have hnext : Quotation.outside.next (· == '"') c = .outside := by simp [Quotation.next, hquote]
    rw [hnext]
    exact ih hrest

/-- One character that neither ends the reading nor joins operands. -/
theorem operandsFrom_cons {q : Quotation} {c : Char} (hitem : c ≠ itemSeparator)
    (hc : q = .outside → isJoint c = false) (current rest : List Char) :
    operandsFrom q 0 current (c :: rest) =
      if c = operandSeparator then
        (operandsFrom (q.next (· == '"') c) 0 [] rest).map (current.reverse :: ·)
      else operandsFrom (q.next (· == '"') c) 0 (c :: current) rest := by
  by_cases hq : q = .outside
  · have hjoint := hc hq
    simp only [isJoint, Bool.or_eq_false_iff, beq_eq_false_iff_ne] at hjoint
    obtain ⟨⟨⟨hcomma, hplus⟩, hopen⟩, hclose⟩ := hjoint
    simp [operandsFrom, hitem, hcomma, hplus, hopen, hclose]
  · simp [operandsFrom, hitem, hq]

/-- What reading a text leaves: the pieces that it closes, and the piece being read, last character
first. The text is kept as a whole, or its last part is behind a separator. -/
inductive Cut (cs current : List Char) : List (List Char) → List Char → Prop where
  | whole (hcs : operandSeparator ∉ cs) : Cut cs current [] (cs.reverse ++ current)
  | behind {before segment : List Char} {pieces : List (List Char)}
      (hcs : cs = before ++ operandSeparator :: segment) (hsegment : operandSeparator ∉ segment)
      (hcurrent : ∀ c ∈ current, ∃ piece ∈ pieces, c ∈ piece)
      (hbefore : ∀ c ∈ before, c ≠ operandSeparator → ∃ piece ∈ pieces, c ∈ piece) :
      Cut cs current pieces segment.reverse

theorem Reads.exists_cut {q r : Quotation} {cs : List Char} (h : Reads q cs r)
    (hitem : itemSeparator ∉ cs) (current : List Char) :
    ∃ pieces last, Cut cs current pieces last ∧ ∀ rest, operandsFrom q 0 current (cs ++ rest) =
      (operandsFrom r 0 last rest).map (pieces ++ ·) := by
  induction h generalizing current with
  | nil => exact ⟨[], current, .whole List.not_mem_nil, fun rest ↦ by simp⟩
  | @cons q r c more hc _ ih =>
    rw [List.mem_cons, not_or] at hitem
    have hstep (rest : List Char) :=
      operandsFrom_cons (Ne.symm hitem.1) hc current (more ++ rest)
    by_cases hcut : c = operandSeparator
    · obtain ⟨pieces, last, hlast, hread⟩ := ih hitem.2 []
      have hcurrent : ∀ d ∈ current, ∃ piece ∈ current.reverse :: pieces, d ∈ piece :=
        fun d hd ↦ ⟨_, List.mem_cons_self, List.mem_reverse.mpr hd⟩
      refine ⟨current.reverse :: pieces, last, ?_, fun rest ↦ ?_⟩
      · subst hcut
        cases hlast with
        | whole hmore =>
          rw [List.append_nil]
          exact .behind (List.nil_append _).symm hmore hcurrent (List.forall_mem_nil _)
        | behind hcs hsegment _ hbefore =>
          subst hcs
          refine .behind (List.cons_append).symm hsegment hcurrent ?_
          refine List.forall_mem_cons.mpr ⟨fun h ↦ absurd rfl h, fun d hd hne ↦ ?_⟩
          obtain ⟨piece, hpiece, hmem⟩ := hbefore d hd hne
          exact ⟨piece, List.mem_cons_of_mem _ hpiece, hmem⟩
      · rw [List.cons_append, hstep, if_pos hcut, hread, Option.map_map]
        rfl
    · obtain ⟨pieces, last, hlast, hread⟩ := ih hitem.2 (c :: current)
      refine ⟨pieces, last, ?_, fun rest ↦ ?_⟩
      · cases hlast with
        | whole hmore =>
          have hlast : more.reverse ++ c :: current = (c :: more).reverse ++ current := by simp
          rw [hlast]
          exact .whole (List.not_mem_cons_of_ne_of_not_mem (Ne.symm hcut) hmore)
        | behind hcs hsegment hcurrent hbefore =>
          subst hcs
          obtain ⟨hc, hcurrent⟩ := List.forall_mem_cons.mp hcurrent
          refine .behind (List.cons_append).symm hsegment hcurrent ?_
          exact List.forall_mem_cons.mpr ⟨fun _ ↦ hc, hbefore⟩
      · rw [List.cons_append, hstep, if_neg hcut, hread]

/-- A text without control characters is read as a whole. -/
theorem Reads.operandsFrom_append {q r : Quotation} {cs : List Char} (h : Reads q cs r)
    (hitem : itemSeparator ∉ cs) (hoperand : operandSeparator ∉ cs) (current rest : List Char) :
    operandsFrom q 0 current (cs ++ rest) = operandsFrom r 0 (cs.reverse ++ current) rest := by
  obtain ⟨pieces, last, hlast, hread⟩ := h.exists_cut hitem current
  cases hlast with
  | whole => simpa using hread rest
  | behind hcs => exact absurd (hcs ▸ List.mem_append_right _ List.mem_cons_self) hoperand

theorem operandsFrom_eq_none {cs : List Char} (h : itemSeparator ∈ cs) (q : Quotation)
    (depth : Int) (current : List Char) : operandsFrom q depth current cs = none := by
  induction cs generalizing q depth current with
  | nil => cases h
  | cons c rest ih =>
    rw [operandsFrom]
    dsimp only
    split
    · rfl
    next hc =>
      have hne : itemSeparator ≠ c := by
        rintro rfl
        simp at hc
      have hrest := (List.mem_cons.mp h).resolve_left hne
      split
      · rw [ih hrest]
        rfl
      · exact ih hrest _ _ _

/-! ### Stray quotes -/

/-- The first quote of the text has only white space behind it or a backslash before it. -/
def HasStrayQuote (cs : List Char) : Prop :=
  ∃ before after, cs = before ++ '"' :: after ∧ '"' ∉ before ∧
    ((∀ c ∈ after, isBlank c = true) ∨ before.getLast? = some '\\')

theorem HasStrayQuote.mem {cs : List Char} (h : HasStrayQuote cs) : '"' ∈ cs := by
  obtain ⟨before, after, rfl, -⟩ := h
  exact List.mem_append_right _ List.mem_cons_self

theorem HasStrayQuote.trim {cs : List Char} (h : HasStrayQuote cs) :
    HasStrayQuote (Chars.trim cs) := by
  obtain ⟨before, after, rfl, hbefore, hstray⟩ := h
  refine ⟨_, _, Chars.trim_append_cons (by decide) before after, ?_, ?_⟩
  · exact fun hmem ↦ hbefore ((List.dropWhile_sublist _).mem hmem)
  · refine hstray.imp (fun hafter ↦ ?_) fun hlast ↦ ?_
    · rw [Chars.trimEnd_of_blank hafter]
      exact List.forall_mem_nil _
    · obtain ⟨front, rfl⟩ := List.getLast?_eq_some_iff.mp hlast
      rw [Chars.trimStart_append_cons (by decide), List.getLast?_concat]

theorem HasStrayQuote.exact_convertOperand {cs : List Char} (h : HasStrayQuote cs) :
    (convertOperand (Chars.trim cs)).exact = false := by
  refine exact_convertOperand_of_quote h.trim.mem ?_
  obtain ⟨before, after, rfl, hbefore, hstray⟩ := h
  rw [Chars.trim_append_cons (by decide)]
  cases hstart : Chars.trimStart before with
  | nil =>
    have hafter : ∀ c ∈ after, isBlank c = true := by
      refine hstray.resolve_right fun hlast ↦ ?_
      obtain ⟨front, rfl⟩ := List.getLast?_eq_some_iff.mp hlast
      rw [Chars.trimStart_append_cons (by decide)] at hstart
      exact absurd hstart (by simp)
    rw [Chars.trimEnd_of_blank hafter]
    rfl
  | cons c rest =>
    have hc : c ≠ '"' := by
      rintro rfl
      exact hbefore ((List.dropWhile_sublist _).mem (hstart ▸ List.mem_cons_self))
    simp [isQuoted, hc]

/-- The first piece goes on from what has been read of it. -/
theorem exists_cons_of_operandsFrom {q : Quotation} {depth : Int} {current cs : List Char}
    {parts : List (List Char)} (h : operandsFrom q depth current cs = some parts) :
    ∃ front others, parts = (current.reverse ++ front) :: others ∧ front <+: cs := by
  induction cs generalizing q depth current parts with
  | nil =>
    obtain rfl := Option.some.inj h
    exact ⟨[], [], by simp, List.nil_prefix⟩
  | cons c rest ih =>
    rw [operandsFrom] at h
    dsimp only at h
    split at h
    · cases h
    split at h
    · obtain ⟨others, -, rfl⟩ := Option.map_eq_some_iff.mp h
      exact ⟨[], others, by simp, List.nil_prefix⟩
    · obtain ⟨front, others, rfl, hfront⟩ := ih h
      exact ⟨c :: front, others, by simp, List.cons_prefix_cons.mpr ⟨rfl, hfront⟩⟩

/-- Cutting an expression leaves a stray quote in one of the pieces. -/
theorem exists_hasStrayQuote {q : Quotation} {depth : Int} {parts : List (List Char)}
    {current before after : List Char}
    (h : operandsFrom q depth current (before ++ '"' :: after) = some parts)
    (hcurrent : '"' ∉ current) (hbefore : '"' ∉ before)
    (hstray : (∀ c ∈ after, isBlank c = true) ∨
      (current.reverse ++ before).getLast? = some '\\') :
    ∃ part ∈ parts, HasStrayQuote part := by
  induction before generalizing q depth current parts with
  | nil =>
    have hstep :
        operandsFrom (q.next (· == '"') '"') depth ('"' :: current) after = some parts := by
      have hitem : ('"' == itemSeparator) = false := by decide
      have hoperand : ('"' == operandSeparator) = false := by decide
      simpa [operandsFrom, hitem, hoperand] using h
    obtain ⟨front, others, rfl, hfront⟩ := exists_cons_of_operandsFrom hstep
    refine ⟨_, List.mem_cons_self, current.reverse, front, by simp, by simpa using hcurrent, ?_⟩
    rw [List.append_nil] at hstray
    exact hstray.imp_left fun hafter c hc ↦ hafter c (hfront.subset hc)
  | cons c rest ih =>
    rw [List.mem_cons, not_or] at hbefore
    rw [List.cons_append, operandsFrom] at h
    dsimp only at h
    split at h
    · cases h
    split at h
    next hcut =>
      obtain ⟨others, hread, rfl⟩ := Option.map_eq_some_iff.mp h
      have hrest : (∀ d ∈ after, isBlank d = true) ∨
          (([] : List Char).reverse ++ rest).getLast? = some '\\' := by
        refine hstray.imp_right fun hlast ↦ ?_
        cases rest with
        | nil =>
          rw [List.getLast?_concat, Option.some.injEq] at hlast
          subst hlast
          exact absurd hcut (by cases q <;> simp [operandSeparator])
        | cons d more => simpa using hlast
      obtain ⟨part, hpart, hquote⟩ := ih hread List.not_mem_nil hbefore.2 hrest
      exact ⟨part, List.mem_cons_of_mem _ hpart, hquote⟩
    next =>
      refine ih h (List.not_mem_cons_of_ne_of_not_mem hbefore.1 hcurrent) hbefore.2 ?_
      simpa using hstray

/-! ### Conversion of the operands -/

theorem mem_operands {cs part : List Char} {parts : List (List Char)}
    (h : operandsFrom .outside 0 [] cs = some parts) (hpart : part ∈ parts)
    (hne : Chars.trim part ≠ []) : Chars.trim part ∈ operands cs := by
  rw [operands, h]
  exact List.mem_filter.mpr ⟨List.mem_map_of_mem hpart, by simpa using hne⟩

/-- A concatenation is converted as exactly as all of its operands. -/
theorem exact_joinArguments {parts : List Argument} {part : Argument} (hpart : part ∈ parts)
    (hexact : part.exact = false) : (joinArguments parts).exact = false := by
  rw [joinArguments, ← Bool.not_eq_true, List.all_eq_true]
  intro hall
  rw [hall part hpart] at hexact
  cases hexact

theorem HasStrayQuote.exact_convertWithin {cs : List Char} (h : HasStrayQuote cs) (fuel : Nat) :
    (convertWithin fuel cs).exact = false := by
  induction fuel generalizing cs with
  | zero => exact h.exact_convertOperand
  | succ fuel ih =>
    by_cases hmany : isConcatenation (Chars.trim cs) = true
    · cases hparts : operandsFrom .outside 0 [] (Chars.trim cs) with
      | none => exact absurd hmany (by simp [isConcatenation, operands, hparts])
      | some parts =>
        obtain ⟨before, after, heq, hbefore, hstray⟩ := h.trim
        obtain ⟨part, hpart, hquote⟩ :=
          exists_hasStrayQuote (heq ▸ hparts) List.not_mem_nil hbefore hstray
        have hmem := mem_operands hparts hpart (Chars.trim_ne_nil hquote.mem (by decide))
        rw [convertWithin]
        simp only [hmany, if_true]
        exact exact_joinArguments (List.mem_map_of_mem hmem) (ih hquote.trim)
    · rw [convertWithin]
      simp only [hmany]
      exact h.exact_convertOperand

end SuiteMigration.Robot
