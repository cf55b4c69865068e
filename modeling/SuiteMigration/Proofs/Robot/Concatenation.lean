import SuiteMigration.Proofs.Java.Concatenation
import SuiteMigration.Proofs.Robot.JoinedCells
import SuiteMigration.Proofs.Robot.Operands

/-!
Cells of concatenations. The operands of a concatenation of literals are converted one by one and
their cells are put together. If this is marked as exact, the cell has the value of the expression
exactly if there is one operand, or the first two are not both integers, no literal holds the
control character that stops the reader, and no variable arises where two cells meet.
-/

set_option autoImplicit false
set_option relaxedAutoImplicit false

namespace SuiteMigration.Robot

open SuiteMigration.Text SuiteMigration.Java

/-! ### Reading the parts of a concatenation -/

theorem not_mem_spacing (s : Spacing) {c : Char} (h : isBlank c = false) : c ∉ s.chars := by
  intro hc
  rw [s.blank c hc] at h
  cases h

theorem ne_of_isDigit {c d : Char} (hc : c.isDigit = true) (hd : d.isDigit = false) : c ≠ d := by
  rintro rfl
  rw [hc] at hd
  cases hd

theorem not_mem_int (n : IntLiteral) {c : Char} (hdigit : c.isDigit = false) (hc : c ≠ '_') :
    c ∉ n.source := by
  intro hmem
  obtain h | h := n.isDigit_of_mem hmem
  · exact ne_of_isDigit h hdigit rfl
  · exact hc h

theorem reads_spacing (s : Spacing) : Reads .outside s.chars .outside := by
  have hne {d : Char} (hd : isBlank d = false) {c : Char} (hc : c ∈ s.chars) : c ≠ d :=
    fun heq ↦ not_mem_spacing s hd (heq ▸ hc)
  refine reads_outside fun c hc ↦ ⟨?_, hne (by decide) hc⟩
  simp [isJoint, hne (d := ',') (by decide) hc, hne (d := '+') (by decide) hc,
    hne (d := '(') (by decide) hc, hne (d := ')') (by decide) hc]

theorem reads_int (n : IntLiteral) : Reads .outside n.source .outside := by
  have hne {d : Char} (hd : d.isDigit = false) (hd' : d ≠ '_') {c : Char} (hc : c ∈ n.source) :
      c ≠ d :=
    fun heq ↦ not_mem_int n hd hd' (heq ▸ hc)
  refine reads_outside fun c hc ↦ ⟨?_, hne (by decide) (by decide) hc⟩
  simp [isJoint, hne (d := ',') (by decide) (by decide) hc,
    hne (d := '+') (by decide) (by decide) hc, hne (d := '(') (by decide) (by decide) hc,
    hne (d := ')') (by decide) (by decide) hc]

theorem reads_inside (l : StringLiteral) : Reads (.inside '"') l.inside (.inside '"') := by
  have hchar (c : LiteralChar) : Reads (.inside '"') c.source (.inside '"') := by
    cases c with
    | plain c hquote hbackslash =>
      refine .cons_of_ne (by decide) ?_
      simp only [Quotation.next, beq_eq_false_iff_ne.mpr hbackslash,
        beq_eq_false_iff_ne.mpr hquote, Bool.false_eq_true, if_false]
      exact .nil
    | escaped e => exact .cons_of_ne (by decide) (.cons_of_ne (by decide) .nil)
  rw [StringLiteral.inside]
  generalize l.chars = chars
  induction chars with
  | nil => exact .nil
  | cons c rest ih => exact (hchar c).append ih

theorem reads_operand (o : Operand) : Reads .outside o.source .outside := by
  cases o with
  | text l =>
    exact .cons (fun _ ↦ rfl) ((reads_inside l).append (.cons_of_ne (by decide) .nil))
  | int n => exact reads_int n

/-! ### Where a concatenation starts and ends -/

theorem isBlank_of_isDigit {c : Char} (h : c.isDigit = true) : isBlank c = false :=
  isBlank_of_isAsciiDigit h

theorem exists_cons_operand (o : Operand) :
    ∃ c rest, o.source = c :: rest ∧ isBlank c = false := by
  cases o with
  | text l => exact ⟨'"', _, rfl, by decide⟩
  | int n =>
    obtain ⟨d, rest, hsource, hd⟩ := n.exists_cons
    exact ⟨d, rest, hsource, isBlank_of_isDigit hd⟩

theorem exists_concat_operand (o : Operand) :
    ∃ front d, o.source = front ++ [d] ∧ isBlank d = false := by
  cases o with
  | text l => exact ⟨'"' :: l.inside, '"', rfl, by decide⟩
  | int n =>
    obtain ⟨front, d, hsource, hd⟩ := n.exists_concat
    exact ⟨front, d, hsource, isBlank_of_isDigit hd⟩

theorem trim_operand (o : Operand) {before after : List Char}
    (hbefore : ∀ c ∈ before, isBlank c = true) (hafter : ∀ c ∈ after, isBlank c = true) :
    Chars.trim (before ++ (o.source ++ after)) = o.source :=
  Chars.trim_between hbefore hafter (exists_cons_operand o) (exists_concat_operand o)

theorem exists_concat_addends (addends : List Addend) {cs : List Char}
    (h : ∃ front d, cs = front ++ [d] ∧ isBlank d = false) :
    ∃ front d, cs ++ addends.flatMap Addend.source = front ++ [d] ∧ isBlank d = false := by
  induction addends generalizing cs with
  | nil => simpa using h
  | cons a rest ih =>
    obtain ⟨front, d, hsource, hd⟩ := exists_concat_operand a.operand
    rw [List.flatMap_cons, ← List.append_assoc]
    refine ih ⟨cs ++ (a.before.chars ++ '+' :: (a.after.chars ++ front)), d, ?_, hd⟩
    simp [Addend.source, hsource]

theorem trim_source (e : Concatenation) : Chars.trim e.source.toList = e.inside := by
  rw [Concatenation.source, String.toList_ofList]
  refine Chars.trim_between e.before.blank e.after.blank ?_
    (exists_concat_addends e.addends (exists_concat_operand e.first))
  obtain ⟨c, rest, hsource, hc⟩ := exists_cons_operand e.first
  exact ⟨c, rest ++ e.addends.flatMap Addend.source, by rw [Concatenation.inside, hsource]; rfl, hc⟩

/-! ### Cutting a concatenation -/

/-- A plus sign closes a piece, and the operand behind it is read after its white space. -/
theorem operandsFrom_addend (a : Addend) (current rest : List Char) :
    operandsFrom .outside 0 current (a.source ++ rest) =
      (operandsFrom .outside 0 a.after.chars.reverse (a.operand.source ++ rest)).map
        ((current.reverse ++ a.before.chars) :: ·) := by
  have hplus (current rest : List Char) : operandsFrom .outside 0 current ('+' :: rest) =
      (operandsFrom .outside 0 [] rest).map (current.reverse :: ·) := rfl
  have hspacing (s : Spacing) :=
    (reads_spacing s).operandsFrom_append (not_mem_spacing s (by decide))
      (not_mem_spacing s (by decide))
  rw [Addend.source, List.append_assoc, hspacing, List.cons_append, hplus, List.append_assoc,
    hspacing, List.append_nil, List.reverse_append, List.reverse_reverse]

/-- An operand without control characters is read as a whole. -/
theorem operandsFrom_operand {o : Operand} (hitem : itemSeparator ∉ o.source)
    (hoperand : operandSeparator ∉ o.source) (before : Spacing) (rest : List Char) :
    operandsFrom .outside 0 before.chars.reverse (o.source ++ rest) =
      operandsFrom .outside 0 (before.chars ++ o.source).reverse rest := by
  rw [(reads_operand o).operandsFrom_append hitem hoperand, List.reverse_append]

theorem exists_operandsFrom {o : Operand} {addends : List Addend}
    (hitem : ∀ p ∈ o :: addends.map Addend.operand, itemSeparator ∉ p.source)
    (hoperand : ∀ p ∈ o :: addends.map Addend.operand, operandSeparator ∉ p.source)
    (before : Spacing) :
    ∃ parts, operandsFrom .outside 0 before.chars.reverse
        (o.source ++ addends.flatMap Addend.source) = some parts ∧
      parts.map Chars.trim = (o :: addends.map Addend.operand).map Operand.source := by
  have htrim (o : Operand) (before after : Spacing) :
      Chars.trim (before.chars ++ o.source ++ after.chars) = o.source := by
    rw [List.append_assoc]
    exact trim_operand o before.blank after.blank
  induction addends generalizing o before with
  | nil =>
    refine ⟨[before.chars ++ o.source], ?_, ?_⟩
    · rw [operandsFrom_operand (hitem o List.mem_cons_self) (hoperand o List.mem_cons_self),
        List.flatMap_nil, operandsFrom, List.reverse_reverse]
    · simpa using htrim o before .none
  | cons a rest ih =>
    rw [List.map_cons, List.forall_mem_cons] at hitem hoperand
    obtain ⟨parts, hparts, hsources⟩ := ih hitem.2 hoperand.2 a.after
    refine ⟨(before.chars ++ o.source ++ a.before.chars) :: parts, ?_, ?_⟩
    · rw [operandsFrom_operand hitem.1 hoperand.1, List.flatMap_cons, operandsFrom_addend, hparts,
        List.reverse_reverse]
      rfl
    · rw [List.map_cons, htrim, hsources]
      rfl

/-- Without control characters the pieces are the operands. -/
theorem operands_append {o : Operand} {addends : List Addend}
    (hitem : ∀ p ∈ o :: addends.map Addend.operand, itemSeparator ∉ p.source)
    (hoperand : ∀ p ∈ o :: addends.map Addend.operand, operandSeparator ∉ p.source) :
    operands (o.source ++ addends.flatMap Addend.source) =
      (o :: addends.map Addend.operand).map Operand.source := by
  obtain ⟨parts, hread, htrim⟩ := exists_operandsFrom hitem hoperand .none
  rw [Spacing.chars_none, List.reverse_nil] at hread
  rw [operands, hread]
  dsimp only
  rw [htrim, List.filter_eq_self]
  intro source hsource
  obtain ⟨p, -, rfl⟩ := List.mem_map.mp hsource
  obtain ⟨c, rest, hcons, -⟩ := exists_cons_operand p
  simp [hcons]

/-! ### Literals that are cut -/

/-- Behind the control character a literal leaves a stray quote. -/
theorem hasStrayQuote_of_source_eq {l : StringLiteral} {before segment gap : List Char}
    (h : l.source = before ++ operandSeparator :: segment) (hgap : ∀ c ∈ gap, isBlank c = true) :
    HasStrayQuote (segment ++ gap) := by
  obtain ⟨front, rfl⟩ : ∃ front, before = '"' :: front := by
    cases before with
    | nil => exact absurd (List.cons.inj h).1 (by decide)
    | cons c front => exact ⟨front, by rw [(List.cons.inj h).1]⟩
  have hsource : l.inside ++ ['"'] = front ++ operandSeparator :: segment := (List.cons.inj h).2
  obtain rfl | ⟨inside, d, rfl⟩ := List.eq_nil_or_concat' segment
  · exact absurd (List.append_inj_right' hsource rfl) (by decide)
  rw [← List.cons_append, ← List.append_assoc] at hsource
  obtain ⟨hinside, hlast⟩ := List.append_inj' hsource rfl
  obtain rfl := (List.cons.inj hlast).1
  by_cases hquote : '"' ∈ inside
  · obtain ⟨first, more, rfl, hfirst⟩ := List.eq_append_cons_of_mem hquote
    rw [← List.cons_append, ← List.append_assoc] at hinside
    have hescaped := l.getLast?_of_inside_eq hinside
    refine ⟨first, more ++ '"' :: gap, by simp, hfirst, Or.inr ?_⟩
    rw [List.getLast?_append_of_ne_nil _ (List.cons_ne_nil _ _)] at hescaped
    cases first with
    | nil => exact absurd (Option.some.inj hescaped) (by decide)
    | cons c others => simpa using hescaped
  · exact ⟨inside, gap, by simp, hquote, Or.inl hgap⟩

/-- Behind what has been read of an operand comes at most white space. -/
theorem exists_operandsFrom_addends {addends : List Addend}
    (hitem : ∀ p ∈ addends.map Addend.operand, itemSeparator ∉ p.source) (current : List Char) :
    ∃ gap others, (∀ c ∈ gap, isBlank c = true) ∧
      operandsFrom .outside 0 current (addends.flatMap Addend.source) =
        some ((current.reverse ++ gap) :: others) := by
  induction addends generalizing current with
  | nil => exact ⟨[], [], List.forall_mem_nil _, by simp [operandsFrom]⟩
  | cons a rest ih =>
    rw [List.map_cons, List.forall_mem_cons] at hitem
    obtain ⟨pieces, last, -, hread⟩ :=
      (reads_operand a.operand).exists_cut hitem.1 a.after.chars.reverse
    obtain ⟨gap, others, -, hrest⟩ := ih hitem.2 last
    refine ⟨a.before.chars, pieces ++ (last.reverse ++ gap) :: others, a.before.blank, ?_⟩
    rw [List.flatMap_cons, operandsFrom_addend, hread, hrest]
    rfl

theorem exists_hasStrayQuote_operand {o : Operand} {addends : List Addend}
    (hitem : ∀ p ∈ o :: addends.map Addend.operand, itemSeparator ∉ p.source)
    (hcut : operandSeparator ∈ o.source) (before : Spacing) :
    ∃ front piece others, operandsFrom .outside 0 before.chars.reverse
        (o.source ++ addends.flatMap Addend.source) = some (front ++ piece :: others) ∧
      (∃ first ∈ front, '"' ∈ first) ∧ HasStrayQuote piece := by
  rw [List.forall_mem_cons] at hitem
  cases o with
  | int n => exact absurd hcut (not_mem_int n (by decide) (by decide))
  | text l =>
    obtain ⟨pieces, last, hlast, hread⟩ :=
      (reads_operand (.text l)).exists_cut hitem.1 before.chars.reverse
    obtain ⟨gap, others, hgap, hrest⟩ := exists_operandsFrom_addends hitem.2 last
    cases hlast with
    | whole hnone => exact absurd hcut hnone
    | @behind front segment _ hsource _ _ hfront =>
      rw [List.reverse_reverse] at hrest
      refine ⟨pieces, segment ++ gap, others, by rw [hread, hrest]; rfl, ?_,
        hasStrayQuote_of_source_eq hsource hgap⟩
      cases front with
      | nil => exact absurd (List.cons.inj hsource).1 (by decide)
      | cons c more =>
        obtain rfl : '"' = c := (List.cons.inj hsource).1
        exact hfront '"' List.mem_cons_self (by decide)

/-- A concatenation with a literal that is cut has a piece with a stray quote, and a quote in a
piece before that. -/
theorem exists_hasStrayQuote_piece {o : Operand} {addends : List Addend}
    (hitem : ∀ p ∈ o :: addends.map Addend.operand, itemSeparator ∉ p.source)
    (hcut : ∃ p ∈ o :: addends.map Addend.operand, operandSeparator ∈ p.source)
    (before : Spacing) :
    ∃ front piece others, operandsFrom .outside 0 before.chars.reverse
        (o.source ++ addends.flatMap Addend.source) = some (front ++ piece :: others) ∧
      (∃ first ∈ front, '"' ∈ first) ∧ HasStrayQuote piece := by
  induction addends generalizing o before with
  | nil =>
    obtain ⟨p, hp, hcut⟩ := hcut
    obtain rfl := List.mem_singleton.mp hp
    exact exists_hasStrayQuote_operand hitem hcut before
  | cons a rest ih =>
    by_cases hfirst : operandSeparator ∈ o.source
    · exact exists_hasStrayQuote_operand hitem hfirst before
    · rw [List.map_cons, List.forall_mem_cons] at hitem
      rw [List.map_cons, List.exists_mem_cons_iff] at hcut
      obtain ⟨front, piece, others, hread, ⟨first, hmem, hquote⟩, hstray⟩ :=
        ih hitem.2 (hcut.resolve_left hfirst) a.after
      refine ⟨(before.chars ++ o.source ++ a.before.chars) :: front, piece, others, ?_,
        ⟨first, List.mem_cons_of_mem _ hmem, hquote⟩, hstray⟩
      rw [operandsFrom_operand hitem.1 hfirst, List.flatMap_cons, operandsFrom_addend, hread,
        List.reverse_reverse]
      rfl

/-! ### The conversion -/

theorem convert_source (e : Concatenation) : ∃ fuel, convert e.source =
    if isConcatenation e.inside = true then
      joinArguments ((operands e.inside).map (convertWithin fuel))
    else convertOperand e.inside := by
  obtain ⟨c, rest, hfirst, -⟩ := exists_cons_operand e.first
  obtain ⟨fuel, hfuel⟩ : ∃ fuel, e.source.length = fuel + 1 := by
    refine Nat.exists_eq_succ_of_ne_zero ?_
    simp [Concatenation.source, Concatenation.inside, hfirst]
  refine ⟨fuel, ?_⟩
  rw [convert, hfuel, convertWithin, trim_source]

theorem subset_inside {e : Concatenation} {o : Operand} (h : o ∈ e.operands) :
    o.source ⊆ e.inside := by
  rw [Concatenation.inside]
  obtain rfl | h := List.mem_cons.mp h
  · exact List.subset_append_left _ _
  · obtain ⟨a, ha, rfl⟩ := List.mem_map.mp h
    refine fun c hc ↦ List.mem_append_right _ (List.mem_flatMap.mpr ⟨a, ha, ?_⟩)
    exact List.mem_append_right _ (List.mem_cons_of_mem _ (List.mem_append_right _ hc))

/-- A concatenation with a literal that stops the reader is converted as one operand. -/
theorem convert_of_itemSeparator {e : Concatenation}
    (h : ∃ o ∈ e.operands, itemSeparator ∈ o.source) :
    convert e.source = convertOperand e.inside := by
  obtain ⟨o, ho, hitem⟩ := h
  obtain ⟨fuel, hconvert⟩ := convert_source e
  have hone : operands e.inside = [e.inside] := by
    rw [operands, operandsFrom_eq_none (subset_inside ho hitem)]
  rw [hconvert, isConcatenation, hone]
  rfl

/-- A concatenation with a literal that is cut is not converted exactly. -/
theorem exact_convert_of_operandSeparator {e : Concatenation}
    (hitem : ∀ o ∈ e.operands, itemSeparator ∉ o.source)
    (hcut : ∃ o ∈ e.operands, operandSeparator ∈ o.source) :
    (convert e.source).exact = false := by
  obtain ⟨front, piece, others, hread, ⟨first, hfirst, hquote⟩, hstray⟩ :=
    exists_hasStrayQuote_piece hitem hcut .none
  have hparts : operandsFrom .outside 0 [] e.inside = some (front ++ piece :: others) := hread
  have hpiece : Chars.trim piece ∈ operands e.inside :=
    mem_operands hparts (by simp) (Chars.trim_ne_nil hstray.mem (by decide))
  have hmany : isConcatenation e.inside = true := by
    rw [isConcatenation, operands, hparts]
    have hkept : Chars.trim first ∈ (front.map Chars.trim).filter fun part ↦ !part.isEmpty :=
      List.mem_filter.mpr ⟨List.mem_map_of_mem hfirst,
        by simpa using Chars.trim_ne_nil hquote (by decide)⟩
    have hlength := List.length_pos_of_mem hkept
    have hrest : Chars.trim piece ≠ [] := Chars.trim_ne_nil hstray.mem (by decide)
    rw [decide_eq_true_iff]
    simp only [List.map_append, List.map_cons, List.filter_append, List.length_append]
    rw [List.filter_cons_of_pos (by simpa using hrest), List.length_cons]
    omega
  obtain ⟨fuel, hconvert⟩ := convert_source e
  rw [hconvert, if_pos hmany]
  exact exact_joinArguments (List.mem_map_of_mem hpiece) (hstray.trim.exact_convertWithin fuel)

/-! ### Cells of the operands -/

theorem convertOperand_text (l : StringLiteral) :
    convertOperand l.source = ⟨joinedCell [l.value], true⟩ := by
  have hvalue := l.unescapeChars_inside []
  rw [List.append_nil, unescapeChars, List.append_nil] at hvalue
  rw [convertOperand, if_pos l.isQuoted_source, l.inner_source, hvalue, joinedCell_singleton]

theorem isQuoted_int (n : IntLiteral) : isQuoted n.source = false := by
  obtain ⟨d, rest, hsource, hd⟩ := n.exists_cons
  simp [hsource, isQuoted, ne_of_isDigit hd (d := '"') (by decide)]

theorem int_ne_word (n : IntLiteral) {word : String}
    (hletter : word.toList.head?.any Char.isDigit = false) : String.ofList n.source ≠ word := by
  rintro rfl
  obtain ⟨d, rest, hsource, hd⟩ := n.exists_cons
  rw [String.toList_ofList, hsource] at hletter
  exact ne_of_isDigit hd hletter rfl

theorem withoutNumberSuffix_int (n : IntLiteral) :
    withoutNumberSuffix (String.ofList n.source) = String.ofList n.source := by
  obtain ⟨front, e, hsource, he⟩ := n.exists_concat
  have hne (letter : Char) (hletter : letter.isDigit = false) : e ≠ letter :=
    ne_of_isDigit he hletter
  have hsuffix : isNumberSuffix e = false := by
    simp [isNumberSuffix, hne 'L' (by decide), hne 'l' (by decide), hne 'f' (by decide),
      hne 'F' (by decide), hne 'd' (by decide), hne 'D' (by decide)]
  simp [withoutNumberSuffix, dropEndWhile, Chars.dropEndWhile, hsource, hsuffix]

theorem afterStart?_this_int (n : IntLiteral) :
    Chars.afterStart? "this.".toList n.source = none := by
  obtain ⟨d, rest, hsource, hd⟩ := n.exists_cons
  simp [hsource, Chars.afterStart?, (ne_of_isDigit hd (d := 't') (by decide)).symm]

theorem isName_int (n : IntLiteral) : isName n.source = false := by
  obtain ⟨d, rest, hsource, hd⟩ := n.exists_cons
  simp [hsource, isName, isAlphabetic_of_isAsciiDigit hd, ne_of_isDigit hd (d := '_') (by decide)]

theorem qualifiedName?_int (n : IntLiteral) : qualifiedName? n.source = none := by
  have hpoint : ∀ c ∈ n.source, (c == '.') = false := fun c hc ↦ by
    rw [beq_eq_false_iff_ne]
    exact fun heq ↦ not_mem_int n (by decide) (by decide) (heq ▸ hc)
  rw [qualifiedName?, Chars.splitOn, Chars.splitBy_of_forall_not hpoint]

/-- A decimal literal is a number if it has no underscore, and never a name. -/
theorem convertOperand_int {n : IntLiteral} (h : (convertOperand n.source).exact = true) :
    (convertOperand n.source).text = String.ofList n.source ∧ '_' ∉ n.source := by
  have hword (word : String) (hletter : word.toList.head?.any Char.isDigit = false) :
      (String.ofList n.source == word) = false :=
    beq_eq_false_iff_ne.mpr (int_ne_word n hletter)
  unfold convertOperand at h ⊢
  dsimp only at h ⊢
  simp only [isQuoted_int, hword "true" (by decide), hword "false" (by decide),
    hword "null" (by decide), Bool.false_eq_true, if_false] at h ⊢
  split at h
  next hnumber =>
    rw [if_pos hnumber]
    refine ⟨withoutNumberSuffix_int n, fun hunderscore ↦ ?_⟩
    have hchar := isNumberChar_of_isNumberLiteral hnumber '_' (by rwa [String.toList_ofList])
    exact absurd hchar (by decide)
  next =>
    rw [afterStart?_this_int, Option.getD_none, isName_int, qualifiedName?_int] at h
    cases h

theorem isOrdinary_of_isDigit {c : Char} (h : c.isDigit = true) : IsOrdinary c := by
  have hne (d : Char) (hd : d.isDigit = false) : c ≠ d := ne_of_isDigit h hd
  refine isOrdinary_of_isEscapable ?_
  simp [isEscapable, isVariableMarker, hne '\\' (by decide), hne '\n' (by decide),
    hne '\t' (by decide), hne '#' (by decide), hne ' ' (by decide), hne '$' (by decide),
    hne '@' (by decide), hne '&' (by decide), hne '%' (by decide)]

theorem text_convertOperand {o : Operand} (h : (convertOperand o.source).exact = true) :
    (convertOperand o.source).text = joinedCell [o.chars] := by
  cases o with
  | text l => exact congrArg Argument.text (convertOperand_text l)
  | int n =>
    obtain ⟨htext, hunderscore⟩ := convertOperand_int h
    have hdigits : n.source = Nat.toDigits 10 n.value := by
      rw [← n.digits, List.filter_eq_self.mpr]
      intro c hc
      simpa using fun heq : c = '_' ↦ hunderscore (heq ▸ hc)
    have hordinary : ∀ c ∈ n.source, IsOrdinary c := fun c hc ↦
      isOrdinary_of_isDigit ((n.isDigit_of_mem hc).resolve_right fun heq ↦ hunderscore (heq ▸ hc))
    rw [Operand.source, htext, Operand.chars_int, ← hdigits, joinedCell_singleton, escapeChars,
      if_neg (by rw [hdigits]; simp), escapeFrom_of_isOrdinary hordinary]

/-! ### Cells of concatenations -/

theorem text_joinArguments {args : List Argument} {texts : List (List Char)}
    (h : args.map Argument.text = texts.map fun text ↦ joinedCell [text]) :
    (joinArguments args).text = joinedCell texts := by
  have hpart (text : List Char) :
      (if joinedCell [text] == emptyCell then "" else joinedCell [text]) =
        String.ofList (escapeFrom true text) := by
    by_cases hempty : text = []
    · subst hempty
      rfl
    · have hne := escapeCell_ne_emptyCell (by simpa using hempty : String.ofList text ≠ "")
      rw [escapeCell, String.toList_ofList] at hne
      rw [joinedCell_singleton, if_neg (by simpa using hne), escapeChars,
        if_neg (by simpa using hempty)]
  have hparts : args.map (fun part ↦ if part.text == emptyCell then "" else part.text) =
      texts.map fun text ↦ String.ofList (escapeFrom true text) :=
    calc
      _ = (args.map Argument.text).map fun text ↦ if text == emptyCell then "" else text := by
        rw [List.map_map]
        rfl
      _ = _ := by
        rw [h, List.map_map]
        exact List.map_congr_left fun text _ ↦ hpart text
  have hjoin : String.join (texts.map fun text ↦ String.ofList (escapeFrom true text)) =
      String.ofList (joinedCells texts) := by
    rw [← String.toList_inj, String.toList_join, String.toList_ofList, joinedCells,
      List.flatMap_map]
    simp only [String.toList_ofList]
  rw [joinArguments, hparts, hjoin]
  dsimp only
  rw [joinedCell]
  simp

/-- An operand without control characters is no concatenation. -/
theorem convertWithin_operand {o : Operand} (hitem : itemSeparator ∉ o.source)
    (hoperand : operandSeparator ∉ o.source) (fuel : Nat) :
    convertWithin fuel o.source = convertOperand o.source := by
  have htrim : Chars.trim o.source = o.source := by
    have hspaced : Chars.trim ([] ++ (o.source ++ [])) = o.source :=
      trim_operand o (List.forall_mem_nil _) (List.forall_mem_nil _)
    rwa [List.nil_append, List.append_nil] at hspaced
  have hone : isConcatenation o.source = false := by
    have hoperands : operands (o.source ++ [].flatMap Addend.source) = [o.source] :=
      operands_append (by simpa using hitem) (by simpa using hoperand)
    rw [List.flatMap_nil, List.append_nil] at hoperands
    rw [isConcatenation, hoperands]
    rfl
  cases fuel with
  | zero => rw [convertWithin, htrim]
  | succ fuel =>
    rw [convertWithin, htrim]
    simp only [hone]
    rfl

/-- An exact conversion of a concatenation that the reader goes through puts the cells of the
operands together. -/
theorem text_convert {e : Concatenation} (hitem : ∀ o ∈ e.operands, itemSeparator ∉ o.source)
    (h : (convert e.source).exact = true) :
    (convert e.source).text = joinedCell (e.operands.map Operand.chars) := by
  have hoperand : ∀ o ∈ e.operands, operandSeparator ∉ o.source := fun o ho hcut ↦ by
    rw [exact_convert_of_operandSeparator hitem ⟨o, ho, hcut⟩] at h
    cases h
  obtain ⟨fuel, hconvert⟩ := convert_source e
  have hoperands : operands e.inside = e.operands.map Operand.source :=
    operands_append hitem hoperand
  have hargs : (operands e.inside).map (convertWithin fuel) =
      e.operands.map fun o ↦ convertOperand o.source := by
    rw [hoperands, List.map_map]
    exact List.map_congr_left fun o ho ↦ convertWithin_operand (hitem o ho) (hoperand o ho) fuel
  rw [hargs] at hconvert
  rw [hconvert] at h ⊢
  split at h
  next hmany =>
    rw [if_pos hmany]
    refine text_joinArguments ?_
    rw [List.map_map, List.map_map]
    refine List.map_congr_left fun o ho ↦ text_convertOperand ?_
    exact List.all_eq_true.mp h _ (List.mem_map_of_mem ho)
  next hmany =>
    have hlength : ¬ 1 < e.operands.length := by
      rwa [isConcatenation, decide_eq_true_iff, hoperands, List.length_map] at hmany
    have hnone : e.addends = [] := by
      rw [Concatenation.operands, List.length_cons, List.length_map] at hlength
      exact List.length_eq_zero_iff.mp (by omega)
    have hinside : e.inside = e.first.source := by
      rw [Concatenation.inside, hnone, List.flatMap_nil, List.append_nil]
    rw [if_neg hmany, Concatenation.operands, hnone, hinside]
    rw [hinside] at h
    exact text_convertOperand h

/-! ### Values of cells -/

theorem decodeCell_joinedCell_singleton (text : List Char) :
    decodeCell (joinedCell [text]) = String.ofList text := by
  have hread := (decodeCell_joinedCell_iff [text]).mpr (seamless_singleton text)
  rwa [List.flatten_singleton] at hread

/-- The cell of a single operand has its value. -/
theorem decodeCell_convert_of_addends_eq_nil {e : Concatenation} (hone : e.addends = [])
    (h : (convert e.source).exact = true) :
    decodeCell (convert e.source).text = String.ofList e.value.chars := by
  have hvalue : e.value.chars = e.first.chars := by
    rw [Concatenation.value, hone]
    rfl
  have hoperands : e.operands = [e.first] := by
    rw [Concatenation.operands, hone]
    rfl
  have htext : (convert e.source).text = joinedCell [e.first.chars] := by
    by_cases hitem : ∃ o ∈ e.operands, itemSeparator ∈ o.source
    · have hinside : e.inside = e.first.source := by
        rw [Concatenation.inside, hone, List.flatMap_nil, List.append_nil]
      rw [convert_of_itemSeparator hitem, hinside] at h ⊢
      exact text_convertOperand h
    · have htext := text_convert (fun o ho hmem ↦ hitem ⟨o, ho, hmem⟩) h
      rwa [hoperands] at htext
  rw [htext, hvalue, decodeCell_joinedCell_singleton]

/-- A concatenation that is converted as one operand loses its value. -/
theorem decodeCell_convert_ne {e : Concatenation} (hmany : e.addends ≠ [])
    (hitem : ∃ o ∈ e.operands, itemSeparator ∈ o.source) (h : (convert e.source).exact = true) :
    decodeCell (convert e.source).text ≠ String.ofList e.value.chars := by
  rw [convert_of_itemSeparator hitem] at h ⊢
  have hquote : '"' ∈ e.inside := by
    obtain ⟨o, ho, hmem⟩ := hitem
    cases o with
    | text l => exact subset_inside ho List.mem_cons_self
    | int n => exact absurd hmem (not_mem_int n (by decide) (by decide))
  have hquoted : isQuoted e.inside = true := by
    by_contra hquoted
    rw [exact_convertOperand_of_quote hquote (Bool.not_eq_true _ ▸ hquoted)] at h
    cases h
  rw [convertOperand, if_pos hquoted, ← joinedCell_singleton, decodeCell_joinedCell_singleton, Ne,
    String.ofList_inj]
  exact Concatenation.unescapeChars_inner_ne hmany hquoted

/-- Where the conversion of a concatenation is marked as exact, reading the cell gives the value of
the concatenation exactly if it has one operand, or it does not start with the sum of two integers,
no literal of it stops the reader, and no variable arises where the cells of its operands meet. -/
theorem exact_concatenation_value_iff (e : Concatenation)
    (h : (convert e.source).exact = true) :
    decodeCell (convert e.source).text = String.ofList e.value.chars ↔
      e.addends = [] ∨
        (¬ StartsWithSum e.operands ∧ (∀ o ∈ e.operands, itemSeparator ∉ o.source) ∧
          Seamless (e.operands.map Operand.chars)) := by
  by_cases hone : e.addends = []
  · exact iff_of_true (decodeCell_convert_of_addends_eq_nil hone h) (Or.inl hone)
  rw [or_iff_right hone]
  by_cases hitem : ∃ o ∈ e.operands, itemSeparator ∈ o.source
  · refine iff_of_false (decodeCell_convert_ne hone hitem h) fun hkept ↦ ?_
    obtain ⟨o, ho, hmem⟩ := hitem
    exact hkept.2.1 o ho hmem
  have hread : ∀ o ∈ e.operands, itemSeparator ∉ o.source := fun o ho hmem ↦ hitem ⟨o, ho, hmem⟩
  rw [text_convert hread h]
  by_cases hsum : StartsWithSum e.operands
  · obtain ⟨front, sum, rest, hfront, hprefix, hchars, hvalue⟩ := e.exists_chars_value hsum
    rw [hvalue]
    refine iff_of_false (decodeCell_joinedCell_ne ?_ hprefix ?_) fun hkept ↦ hkept.1 hsum
    · exact fun hmarker ↦ ne_of_isDigit (hfront _ hmarker) (by decide) rfl
    · rw [← hchars, List.flatMap_def]
  · rw [e.chars_value hsum, List.flatMap_def, decodeCell_joinedCell_iff]
    exact ⟨fun hseamless ↦ ⟨hsum, hread, hseamless⟩, fun hkept ↦ hkept.2.2⟩

/-- `"$" +"{"+ 1 + 2`: a marker that meets a brace makes no variable yet, and behind a text integers
add their digits. -/
theorem integers_behind_text_value :
    let e : Concatenation := ⟨.none, .text (.ofChar '$'), [⟨.space, .none, .text (.ofChar '\x7b')⟩,
      ⟨.none, .space, .int (.ofFin 1)⟩, ⟨.space, .space, .int (.ofFin 2)⟩], .none⟩
    e.source = "\"$\" +\"\x7b\"+ 1 + 2" ∧ (convert e.source).exact = true ∧
      decodeCell (convert e.source).text = "$\x7b12" := by
  intro e
  have hchars : e.operands.map Operand.chars = [['$'], ['\x7b'], ['1'], ['2']] := by
    simp only [e, Concatenation.operands, List.map_cons, List.map_nil, Operand.chars_int]
    decide
  have hexact : (convert e.source).exact = true := by decide +kernel
  refine ⟨by decide, hexact, ?_⟩
  rw [(exact_concatenation_value_iff e hexact).mpr (Or.inr ⟨id, by decide, ?_⟩)]
  · rw [e.chars_value id, List.flatMap_def, hchars]
    rfl
  · rw [hchars]
    decide

/-- `1 + 2`: the sum is written as the digits of both integers, and marked as exact. -/
theorem integer_sum_written_as_digits :
    let e : Concatenation := ⟨.none, .int (.ofFin 1), [⟨.space, .space, .int (.ofFin 2)⟩], .none⟩
    e.source = "1 + 2" ∧ convert e.source = ⟨"12", true⟩ ∧
      decodeCell (convert e.source).text = "12" ∧ String.ofList e.value.chars = "3" := by
  intro e
  have hconvert : convert e.source = ⟨"12", true⟩ := by decide +kernel
  have hvalue : e.value.chars = ['3'] := by
    change (Value.int (.ofNat 1 + .ofNat 2)).chars = _
    rw [← Int32.ofNat_add, chars_ofNat_of_le (by decide)]
    decide
  exact ⟨by decide, hconvert, by rw [hconvert]; decide, by rw [hvalue]⟩

end SuiteMigration.Robot
