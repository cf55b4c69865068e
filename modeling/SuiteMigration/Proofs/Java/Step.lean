import SuiteMigration.Proofs.Java.Delimiter
import SuiteMigration.Proofs.Text.Words

/-!
The reader of regions takes its text in steps: a character of code, a character or a sequence of a
literal or of a comment. A step looks at what follows only to tell whether a sequence goes on, so it
is the same before any text in which no sequence goes on that did not go on before. Marks that are
cut at a character of code are therefore the marks of the two texts.
-/

set_option autoImplicit false
set_option relaxedAutoImplicit false

namespace SuiteMigration.Java

def Region.isComment : Region → Bool
  | .lineComment | .blockComment => true
  | _ => false

/-- The region of what is left when comments are removed. -/
def Region.outside (region : Region) : Region :=
  if region.isComment then .code else region

/-- The marks that one step takes, and the region in which the reader goes on. -/
inductive Step : Region → List Mark → Region → Prop
  | code (c : Char) : Step .code [⟨c, .code⟩] .code
  | literal {region after : Region} {front : List Mark} (hregion : region.isComment = false)
      (hafter : after.isComment = false) (hfront : ∀ mark ∈ front, mark.kind = .literal) :
      Step region front after
  | comment {region after : Region} {front : List Mark} (hregion : region.outside = .code)
      (hafter : after.isComment = true) (hfront : ∀ mark ∈ front, mark.kind = .comment) :
      Step region front after
  | lineEnd : Step .lineComment [⟨'\n', .lineEnd⟩] .code
  | blockEnd : Step .blockComment [⟨'*', .comment⟩, ⟨'/', .blockEnd⟩] .code

/-- A text that goes on with a sequence only if another one does. -/
structure Continues (rest tail : List Char) : Prop where
  sequence : ∀ p ∈ [['/'], ['*'], ['"', '"']], p <+: tail → p <+: rest
  ends : rest = [] → tail = []

theorem Continues.of_start {rest tail : List Char} (h : tail <+: rest) : Continues rest tail :=
  ⟨fun _ _ hp ↦ hp.trans h, fun hrest ↦ List.prefix_nil.mp (hrest ▸ h)⟩

section Continues

variable {rest tail more : List Char}

theorem Continues.slash (h : Continues rest tail) (hrest : ∀ others, rest ≠ '/' :: others) :
    tail ≠ '/' :: more := by
  rintro rfl
  obtain ⟨others, hothers⟩ := h.sequence ['/'] (by simp) ⟨more, rfl⟩
  exact hrest others hothers.symm

theorem Continues.star (h : Continues rest tail) (hrest : ∀ others, rest ≠ '*' :: others) :
    tail ≠ '*' :: more := by
  rintro rfl
  obtain ⟨others, hothers⟩ := h.sequence ['*'] (by simp) ⟨more, rfl⟩
  exact hrest others hothers.symm

theorem Continues.quotes (h : Continues rest tail) (hrest : ∀ others, rest ≠ '"' :: '"' :: others) :
    tail ≠ '"' :: '"' :: more := by
  rintro rfl
  obtain ⟨others, hothers⟩ := h.sequence ['"', '"'] (by simp) ⟨more, rfl⟩
  exact hrest others hothers.symm

/-- Where a backslash escapes nothing, nothing follows it. -/
theorem Continues.nil (h : Continues rest tail) (hrest : ∀ c others, rest ≠ c :: others)
    (c : Char) : tail ≠ c :: more := by
  have hnil : rest = [] := by
    cases rest with
    | nil => rfl
    | cons d others => exact absurd rfl (hrest d others)
  rw [h.ends hnil]
  exact (List.cons_ne_nil c more).symm

end Continues

/-- A step that takes marks from the front of a text, whatever else follows them. -/
structure StepsTo (region : Region) (cs : List Char) (front : List Mark) (after : Region)
    (rest : List Char) : Prop where
  text_eq : cs = textOf front ++ rest
  ne_nil : front ≠ []
  step : Step region front after
  marks_eq : ∀ tail, Continues rest tail →
    marksFrom true region (textOf front ++ tail) = front ++ marksFrom true after tail

section Steps

variable {region : Region} {c : Char} {rest : List Char}

theorem stepsTo_code (hquote : ¬(c == '"') = true) (hcharacter : ¬(c == '\x27') = true)
    (hline : ∀ more, c = '/' → rest = '/' :: more → False)
    (hblock : ∀ more, c = '/' → rest = '*' :: more → False) :
    StepsTo .code (c :: rest) [⟨c, .code⟩] .code rest := by
  refine ⟨rfl, List.cons_ne_nil _ _, .code c, fun tail h ↦ ?_⟩
  refine (marksFrom_code_cons true (fun more hc ↦ h.slash (hline · hc))
    (fun more hc ↦ h.star (hblock · hc)) (fun more hc ↦ ?_)).trans
    ((if_neg hquote).trans (if_neg hcharacter))
  exact absurd (beq_iff_eq.mpr hc) hquote

/-- A literal character, or a quote that opens a literal. -/
theorem stepsTo_literal {after : Region} (hregion : region.isComment = false)
    (hafter : after.isComment = false)
    (h : ∀ tail, Continues rest tail →
      marksFrom true region (c :: tail) = ⟨c, .literal⟩ :: marksFrom true after tail) :
    StepsTo region (c :: rest) [⟨c, .literal⟩] after rest :=
  ⟨rfl, List.cons_ne_nil _ _, .literal hregion hafter (by simp), h⟩

theorem stepsTo_comment (hregion : region.isComment = true)
    (h : ∀ tail, Continues rest tail →
      marksFrom true region (c :: tail) = ⟨c, .comment⟩ :: marksFrom true region tail) :
    StepsTo region (c :: rest) [⟨c, .comment⟩] region rest :=
  ⟨rfl, List.cons_ne_nil _ _, .comment (if_pos hregion) hregion (by simp), h⟩

end Steps

/-- The reader takes a step on every text that is not empty. -/
theorem exists_stepsTo (region : Region) {cs : List Char} (hne : cs ≠ []) :
    ∃ front after rest, StepsTo region cs front after rest := by
  generalize hescapes : true = blockEscapes
  fun_cases marksFrom blockEscapes region cs with
  | case1 => exact absurd rfl hne
  | case2 rest =>
    exact ⟨[⟨'/', .comment⟩, ⟨'/', .comment⟩], .lineComment, rest, rfl, by simp,
      .comment rfl rfl (by simp), fun _ _ ↦ rfl⟩
  | case3 rest =>
    exact ⟨[⟨'/', .comment⟩, ⟨'*', .comment⟩], .blockComment, rest, rfl, by simp,
      .comment rfl rfl (by simp), fun _ _ ↦ rfl⟩
  | case4 rest =>
    exact ⟨[⟨'"', .literal⟩, ⟨'"', .literal⟩, ⟨'"', .literal⟩], .textBlock, rest, rfl, by simp,
      .literal rfl rfl (by simp), fun _ _ ↦ rfl⟩
  | case5 c rest hline hblock htriple hquote =>
    refine ⟨_, .string, _, stepsTo_literal rfl rfl fun tail h ↦ ?_⟩
    exact (marksFrom_code_cons true (fun more hc ↦ h.slash (hline · hc))
      (fun more hc ↦ h.star (hblock · hc)) (fun more hc ↦ h.quotes (htriple · hc))).trans
      (if_pos hquote)
  | case6 c rest hline hblock htriple hquote hcharacter =>
    refine ⟨_, .character, _, stepsTo_literal rfl rfl fun tail h ↦ ?_⟩
    exact (marksFrom_code_cons true (fun more hc ↦ h.slash (hline · hc))
      (fun more hc ↦ h.star (hblock · hc)) (fun more hc ↦ h.quotes (htriple · hc))).trans
      ((if_neg hquote).trans (if_pos hcharacter))
  | case7 c rest hline hblock htriple hquote hcharacter =>
    exact ⟨_, _, _, stepsTo_code hquote hcharacter hline hblock⟩
  | case8 c rest =>
    exact ⟨[⟨'\\', .literal⟩, ⟨c, .literal⟩], .string, rest, rfl, by simp,
      .literal rfl rfl (by simp), fun _ _ ↦ rfl⟩
  | case9 c rest hescape =>
    refine ⟨_, if c == '"' || c == '\n' then .code else .string, _,
      stepsTo_literal rfl (by split <;> rfl) fun tail h ↦ ?_⟩
    rw [marksFrom]
    exact fun d more hc ↦ h.nil (hescape · · hc) d
  | case10 c rest =>
    exact ⟨[⟨'\\', .literal⟩, ⟨c, .literal⟩], .character, rest, rfl, by simp,
      .literal rfl rfl (by simp), fun _ _ ↦ rfl⟩
  | case11 c rest hescape =>
    refine ⟨_, if c == '\x27' || c == '\n' then .code else .character, _,
      stepsTo_literal rfl (by split <;> rfl) fun tail h ↦ ?_⟩
    rw [marksFrom]
    exact fun d more hc ↦ h.nil (hescape · · hc) d
  | case12 rest =>
    exact ⟨[⟨'"', .literal⟩, ⟨'"', .literal⟩, ⟨'"', .literal⟩], .code, rest, rfl, by simp,
      .literal rfl rfl (by simp), fun _ _ ↦ rfl⟩
  | case13 c rest hblock =>
    exact ⟨[⟨'\\', .literal⟩, ⟨c, .literal⟩], .textBlock, rest, rfl, by simp,
      .literal rfl rfl (by simp), fun _ _ ↦ rfl⟩
  | case14 c rest hnone => exact absurd hescapes.symm hnone
  | case15 c rest htriple hescape =>
    refine ⟨_, .textBlock, _, stepsTo_literal rfl rfl fun tail h ↦ ?_⟩
    rw [marksFrom]
    · exact fun more hc ↦ h.quotes (htriple · hc)
    · exact fun d more hc ↦ h.nil (hescape · · hc) d
  | case16 c rest hline =>
    obtain rfl : c = '\n' := beq_iff_eq.mp hline
    exact ⟨[⟨'\n', .lineEnd⟩], .code, rest, rfl, by simp, .lineEnd, fun _ _ ↦ rfl⟩
  | case17 c rest hline =>
    refine ⟨_, _, _, stepsTo_comment rfl fun tail h ↦ ?_⟩
    rw [marksFrom, if_neg hline]
  | case18 rest =>
    exact ⟨[⟨'*', .comment⟩, ⟨'/', .blockEnd⟩], .code, rest, rfl, by simp, .blockEnd,
      fun _ _ ↦ rfl⟩
  | case19 c rest hclose =>
    refine ⟨_, _, _, stepsTo_comment rfl fun tail h ↦ ?_⟩
    rw [marksFrom]
    exact fun more hc ↦ h.slash (hclose · hc)

theorem StepsTo.marksFrom_eq {region after : Region} {cs rest : List Char} {front : List Mark}
    (h : StepsTo region cs front after rest) :
    marksFrom true region cs = front ++ marksFrom true after rest := by
  rw [h.text_eq, h.marks_eq rest (.of_start (List.prefix_refl rest))]

theorem StepsTo.length_lt {region after : Region} {cs rest : List Char} {front : List Mark}
    (h : StepsTo region cs front after rest) : rest.length < cs.length := by
  rw [h.text_eq, List.length_append, textOf, List.length_map]
  exact Nat.lt_add_of_pos_left (List.length_pos_iff.mpr h.ne_nil)

/-! ### Marks of a part of a text -/

/-- A character of code cuts the marks of a text into those of two texts. -/
theorem marksFrom_split {region : Region} {cs : List Char} {before after : List Mark} {c : Char}
    (h : marksFrom true region cs = before ++ ⟨c, .code⟩ :: after) :
    marksFrom true region (textOf before) = before ∧ marks (textOf after) = after := by
  induction hlength : cs.length using Nat.strongRecOn generalizing region cs before with
  | ind n ih =>
    have hne : cs ≠ [] := by
      rintro rfl
      rw [marksFrom_nil] at h
      simp at h
    obtain ⟨front, next, rest, hstep⟩ := exists_stepsTo region hne
    rw [hstep.marksFrom_eq] at h
    rcases List.append_eq_append_iff.mp h with ⟨more, rfl, hmore⟩ | ⟨more, hfront, hmore⟩
    · -- the character stands behind this step, which is the same before the text in between
      obtain ⟨hbefore, hafter⟩ := ih rest.length (hlength ▸ hstep.length_lt) hmore rfl
      have hpre : textOf more <+: rest := by
        have htext := congrArg textOf hmore
        rw [textOf_marksFrom, textOf_append] at htext
        exact htext ▸ List.prefix_append _ _
      refine ⟨?_, hafter⟩
      rw [textOf_append, hstep.marks_eq _ (.of_start hpre), hbefore]
    · cases more with
      | nil =>
        rw [List.append_nil] at hfront
        rw [List.nil_append] at hmore
        have hbehind : marksFrom true next rest = [] ++ ⟨c, .code⟩ :: after := hmore.symm
        refine ⟨?_, (ih rest.length (hlength ▸ hstep.length_lt) hbehind rfl).2⟩
        have hown := hstep.marks_eq [] (.of_start List.nil_prefix)
        rwa [marksFrom_nil, List.append_nil, List.append_nil, hfront] at hown
      | cons mark others =>
        -- the character is a step of its own
        obtain ⟨rfl, rfl⟩ := List.cons.inj hmore
        have hmem : (⟨c, .code⟩ : Mark) ∈ front := hfront ▸ by simp
        cases hstep.step with
        | code d =>
          obtain ⟨rfl, hothers⟩ : before = [] ∧ others = [] := by
            cases before with
            | nil => exact ⟨rfl, (List.cons.inj hfront).2.symm⟩
            | cons first more => simp at hfront
          subst hothers
          refine ⟨marksFrom_nil _ _, ?_⟩
          change marks (textOf (marks rest)) = marks rest
          rw [textOf_marks]
        | literal _ _ hkinds => cases hkinds _ hmem
        | comment _ _ hkinds => cases hkinds _ hmem
        | lineEnd => simp at hmem
        | blockEnd => simp at hmem

/-- The marks up to a character of code are the same whatever follows it, if it can neither open nor
close anything. -/
theorem marksFrom_change_tail {region : Region} {cs rest : List Char} {c : Char}
    {before after : List Mark} (hplain : isPlain c = true) (hstar : c ≠ '*')
    (h : marksFrom true region (cs ++ c :: rest) = before ++ ⟨c, .code⟩ :: after)
    (hlength : before.length = cs.length) (tail : List Char) :
    marksFrom true region (cs ++ c :: tail) = before ++ ⟨c, .code⟩ :: marks tail := by
  have hsequence : ∀ p ∈ [['/'], ['*'], ['"', '"']], c ∉ p := by
    simp only [isPlain, Bool.and_eq_true, bne_iff_ne] at hplain
    simp [hplain.1, hstar]
  induction hn : cs.length using Nat.strongRecOn generalizing region cs before with
  | ind n ih =>
    have hne : cs ++ c :: rest ≠ [] := by simp
    obtain ⟨front, next, more, hstep⟩ := exists_stepsTo region hne
    have hmarks := hstep.marksFrom_eq.symm.trans h
    -- where the character stands behind this step, the step is the same before the other text
    have hbehind (inner : List Mark) (hbefore : before = front ++ inner)
        (hinner : marksFrom true next more = inner ++ ⟨c, .code⟩ :: after) :
        marksFrom true region (cs ++ c :: tail) = before ++ ⟨c, .code⟩ :: marks tail := by
      subst hbefore
      have htext := hstep.text_eq
      have hfirst : (textOf front).length ≤ cs.length := by
        rw [← hlength, List.length_append, textOf, List.length_map]
        exact Nat.le_add_right _ _
      obtain ⟨between, rfl⟩ : textOf front <+: cs :=
        List.prefix_of_prefix_length_le (htext ▸ List.prefix_append (textOf front) more)
          (List.prefix_append cs (c :: rest)) hfirst
      rw [List.append_assoc] at htext
      obtain rfl := List.append_cancel_left htext
      have hpos := List.length_pos_iff.mpr hstep.ne_nil
      simp only [List.length_append, textOf, List.length_map] at hlength hn
      have hcontinues : Continues (between ++ c :: rest) (between ++ c :: tail) :=
        ⟨fun p hp hpre ↦ (Chars.prefix_of_prefix_append_cons (hsequence p hp) hpre).trans
          (List.prefix_append _ _), fun hnil ↦ by simp at hnil⟩
      rw [List.append_assoc, hstep.marks_eq _ hcontinues, List.append_assoc,
        ih between.length (by omega) hinner (by omega) rfl]
    obtain ⟨inner, hbefore, hinner⟩ | ⟨inner, hfront, hinner⟩ :=
      List.append_eq_append_iff.mp hmarks
    · exact hbehind inner hbefore hinner
    · cases inner with
      | nil =>
        rw [List.append_nil] at hfront
        exact hbehind [] (by rw [hfront, List.append_nil]) hinner.symm
      | cons mark others =>
        -- the character is a step of its own, at the start of the text
        obtain ⟨rfl, -⟩ := List.cons.inj hinner
        have hmem : (⟨c, .code⟩ : Mark) ∈ front := hfront ▸ by simp
        cases hstep.step with
        | code d =>
          obtain rfl : before = [] := by
            cases before with
            | nil => rfl
            | cons first more => simp at hfront
          obtain rfl := List.eq_nil_of_length_eq_zero hlength.symm
          have hlexes : Lexes .code [c] (codeMarks [c]) .code := lexes_plain (by simpa using hplain)
          exact hlexes tail
        | literal _ _ hkinds => cases hkinds _ hmem
        | comment _ _ hkinds => cases hkinds _ hmem
        | lineEnd => simp at hmem
        | blockEnd => simp at hmem

/-- Marks that are those of their own text. -/
def Own (ms : List Mark) : Prop :=
  marks (textOf ms) = ms

theorem own_marks (cs : List Char) : Own (marks cs) := by
  rw [Own, textOf_marks]

section Own

variable {ms before after : List Mark} {c : Char}

theorem Own.left (h : Own (before ++ ⟨c, .code⟩ :: after)) : Own before :=
  (marksFrom_split h).1

theorem Own.right (h : Own (before ++ ⟨c, .code⟩ :: after)) : Own after :=
  (marksFrom_split h).2

end Own

/-! ### Cuts of marks -/

/-- The marks before the first code character that satisfies `p`, that character, and the marks
after it. -/
def splitMarks? (p : Char → Bool) : List Mark → Option (List Mark × Char × List Mark)
  | [] => none
  | mark :: rest =>
      if mark.kind == .code && p mark.char then some ([], mark.char, rest)
      else (splitMarks? p rest).map fun (before, found, after) ↦ (mark :: before, found, after)

theorem breakMarks?_eq (p : Char → Bool) (ms : List Mark) :
    breakMarks? p ms = (splitMarks? p ms).map fun (before, found, after) ↦
      (textOf before, found, textOf after) := by
  induction ms with
  | nil => rfl
  | cons mark rest ih =>
    rw [breakMarks?, splitMarks?]
    split
    · rfl
    · rw [ih, Option.map_map, Option.map_map]
      rfl

theorem splitMarks?_eq_some {p : Char → Bool} {ms before after : List Mark} {c : Char}
    (h : splitMarks? p ms = some (before, c, after)) :
    ms = before ++ ⟨c, .code⟩ :: after ∧ p c = true ∧
      ∀ mark ∈ before, (mark.kind == .code && p mark.char) = false := by
  induction ms generalizing before with
  | nil => cases h
  | cons mark rest ih =>
    rw [splitMarks?] at h
    split at h
    next hmark =>
      rw [Bool.and_eq_true, beq_iff_eq] at hmark
      obtain ⟨rfl, hpair⟩ := Prod.mk.inj (Option.some.inj h)
      obtain ⟨rfl, rfl⟩ := Prod.mk.inj hpair
      obtain ⟨d, kind⟩ := mark
      obtain rfl : kind = .code := hmark.1
      exact ⟨rfl, hmark.2, by simp⟩
    next hmark =>
      obtain ⟨⟨front, found, back⟩, hrest, htriple⟩ := Option.map_eq_some_iff.mp h
      obtain ⟨rfl, hpair⟩ := Prod.mk.inj htriple
      obtain ⟨rfl, rfl⟩ := Prod.mk.inj hpair
      obtain ⟨rfl, hfound, hfront⟩ := ih hrest
      refine ⟨rfl, hfound, fun m hm ↦ ?_⟩
      rcases List.mem_cons.mp hm with rfl | hm
      · exact Bool.eq_false_iff.mpr hmark
      · exact hfront m hm

theorem splitMarks?_append {p : Char → Bool} {before : List Mark} {c : Char} (hc : p c = true)
    (h : ∀ mark ∈ before, (mark.kind == .code && p mark.char) = false) (after : List Mark) :
    splitMarks? p (before ++ ⟨c, .code⟩ :: after) = some (before, c, after) := by
  induction before with
  | nil =>
    rw [List.nil_append, splitMarks?]
    exact if_pos (by rw [hc]; rfl)
  | cons mark rest ih =>
    rw [List.cons_append, splitMarks?, h mark List.mem_cons_self, if_neg Bool.false_ne_true,
      ih fun m hm ↦ h m (List.mem_cons_of_mem _ hm)]
    rfl

theorem splitMarks?_eq_none_iff {p : Char → Bool} {ms : List Mark} :
    splitMarks? p ms = none ↔ ∀ mark ∈ ms, (mark.kind == .code && p mark.char) = false := by
  induction ms with
  | nil => simp [splitMarks?]
  | cons mark rest ih =>
    rw [splitMarks?, List.forall_mem_cons, ← ih]
    split
    next hmark => simp [hmark]
    next hmark => simp [Bool.eq_false_iff.mpr hmark]

/-- The marks before the closing bracket that is not matched inside them, and the marks after it. -/
def closeMarks? (opening closing : Char) : Nat → List Mark → Option (List Mark × List Mark)
  | _, [] => none
  | depth, mark :: rest =>
      if mark.isCode opening then
        (closeMarks? opening closing (depth + 1) rest).map fun (inside, after) ↦
          (mark :: inside, after)
      else if mark.isCode closing then
        match depth with
        | 0 => some ([], rest)
        | inner + 1 =>
            (closeMarks? opening closing inner rest).map fun (inside, after) ↦
              (mark :: inside, after)
      else
        (closeMarks? opening closing depth rest).map fun (inside, after) ↦ (mark :: inside, after)

section Close

variable {opening closing : Char} {mark : Mark} (depth : Nat) (rest : List Mark)

theorem eq_of_isCode {mark : Mark} {c : Char} (h : mark.isCode c = true) : mark = ⟨c, .code⟩ := by
  rw [Mark.isCode, Bool.and_eq_true, beq_iff_eq, beq_iff_eq] at h
  rw [← h.1, ← h.2]

theorem closeMarks?_cons_opening (h : mark.isCode opening = true) :
    closeMarks? opening closing depth (mark :: rest) =
      (closeMarks? opening closing (depth + 1) rest).map fun (inside, after) ↦
        (mark :: inside, after) := by
  rw [closeMarks?.eq_def]
  exact if_pos h

theorem closeMarks?_cons_closing (hopening : mark.isCode opening = false)
    (hclosing : mark.isCode closing = true) :
    closeMarks? opening closing (depth + 1) (mark :: rest) =
      (closeMarks? opening closing depth rest).map fun (inside, after) ↦
        (mark :: inside, after) := by
  simp [closeMarks?, hopening, hclosing]

theorem closeMarks?_zero_cons_closing (hopening : mark.isCode opening = false)
    (hclosing : mark.isCode closing = true) :
    closeMarks? opening closing 0 (mark :: rest) = some ([], rest) := by
  simp [closeMarks?, hopening, hclosing]

/-- A search for a closing bracket passes marks that are no brackets. -/
theorem closeMarks?_append_other {front : List Mark}
    (h : ∀ mark ∈ front, mark.isCode opening = false ∧ mark.isCode closing = false) :
    closeMarks? opening closing depth (front ++ rest) =
      (closeMarks? opening closing depth rest).map fun (inside, after) ↦
        (front ++ inside, after) := by
  induction front with
  | nil => exact Option.map_id'.symm
  | cons mark more ih =>
    obtain ⟨hopening, hclosing⟩ := h mark List.mem_cons_self
    rw [List.cons_append, closeMarks?.eq_def]
    simp only [hopening, hclosing, Bool.false_eq_true, if_false]
    rw [ih fun m hm ↦ h m (List.mem_cons_of_mem _ hm), Option.map_map]
    rfl

end Close

theorem closeFrom_eq (opening closing : Char) (depth : Nat) (ms : List Mark) :
    closeFrom opening closing depth ms = (closeMarks? opening closing depth ms).map
      fun (inside, after) ↦ ⟨textOf inside, textOf after⟩ := by
  fun_induction closeMarks? opening closing depth ms with
  | case1 => rfl
  | case2 depth mark rest hopening ih =>
    rw [closeFrom_cons_opening _ _ hopening, ih, Option.map_map, Option.map_map]
    rfl
  | case3 mark rest hopening hclosing =>
    rw [closeFrom_zero_cons_closing _ (Bool.eq_false_iff.mpr hopening) hclosing]
    rfl
  | case4 mark rest hopening hclosing inner ih =>
    rw [closeFrom_cons_closing _ _ (Bool.eq_false_iff.mpr hopening) hclosing, ih, Option.map_map,
      Option.map_map]
    rfl
  | case5 depth mark rest hopening hclosing ih =>
    rw [closeFrom_cons_other _ _ (Bool.eq_false_iff.mpr hopening) (Bool.eq_false_iff.mpr hclosing),
      ih, Option.map_map, Option.map_map]
    rfl

theorem closeMarks?_eq_some {opening closing : Char} {depth : Nat} {ms inside after : List Mark}
    (h : closeMarks? opening closing depth ms = some (inside, after)) :
    ms = inside ++ ⟨closing, .code⟩ :: after := by
  have hcons {mark : Mark} {rest inside : List Mark} {found : Option (List Mark × List Mark)}
      (hfound : found.map (fun (inside, after) ↦ (mark :: inside, after)) = some (inside, after))
      (ih : ∀ inside, found = some (inside, after) → rest = inside ++ ⟨closing, .code⟩ :: after) :
      mark :: rest = inside ++ ⟨closing, .code⟩ :: after := by
    obtain ⟨⟨front, back⟩, hrest, hpair⟩ := Option.map_eq_some_iff.mp hfound
    obtain ⟨rfl, rfl⟩ := Prod.mk.inj hpair
    rw [ih front hrest, List.cons_append]
  fun_induction closeMarks? opening closing depth ms generalizing inside with
  | case1 => cases h
  | case2 depth mark rest hopening ih => exact hcons h fun _ ↦ ih
  | case3 mark rest hopening hclosing =>
    obtain ⟨rfl, rfl⟩ := Prod.mk.inj (Option.some.inj h)
    rw [List.nil_append, eq_of_isCode hclosing]
  | case4 mark rest hopening hclosing inner ih => exact hcons h fun _ ↦ ih
  | case5 depth mark rest hopening hclosing ih => exact hcons h fun _ ↦ ih

/-- What a search for a closing bracket finds does not depend on what follows the bracket. -/
theorem closeMarks?_change_tail {opening closing : Char} {depth : Nat}
    {ms inside after : List Mark} (hne : opening ≠ closing)
    (h : closeMarks? opening closing depth ms = some (inside, after)) (tail : List Mark) :
    closeMarks? opening closing depth (inside ++ ⟨closing, .code⟩ :: tail) =
      some (inside, tail) := by
  have hclosed : Mark.isCode ⟨closing, .code⟩ opening = false := isCode_of_ne hne.symm
  fun_induction closeMarks? opening closing depth ms generalizing inside with
  | case1 => cases h
  | case2 depth mark rest hopening ih =>
    obtain ⟨⟨front, back⟩, hrest, hpair⟩ := Option.map_eq_some_iff.mp h
    obtain ⟨rfl, rfl⟩ := Prod.mk.inj hpair
    rw [List.cons_append, closeMarks?_cons_opening _ _ hopening, ih hrest]
    rfl
  | case3 mark rest hopening hclosing =>
    obtain ⟨rfl, rfl⟩ := Prod.mk.inj (Option.some.inj h)
    exact closeMarks?_zero_cons_closing tail hclosed (isCode_self closing)
  | case4 mark rest hopening hclosing inner ih =>
    obtain ⟨⟨front, back⟩, hrest, hpair⟩ := Option.map_eq_some_iff.mp h
    obtain ⟨rfl, rfl⟩ := Prod.mk.inj hpair
    rw [List.cons_append, closeMarks?_cons_closing _ _ (Bool.eq_false_iff.mpr hopening) hclosing,
      ih hrest]
    rfl
  | case5 depth mark rest hopening hclosing ih =>
    obtain ⟨⟨front, back⟩, hrest, hpair⟩ := Option.map_eq_some_iff.mp h
    obtain ⟨rfl, rfl⟩ := Prod.mk.inj hpair
    have hother : ∀ m ∈ [mark], m.isCode opening = false ∧ m.isCode closing = false := by
      simpa using ⟨Bool.eq_false_iff.mpr hopening, Bool.eq_false_iff.mpr hclosing⟩
    rw [List.cons_append, ← List.singleton_append, closeMarks?_append_other _ _ hother, ih hrest]
    rfl

/-- The bracketed region that follows an opening bracket. -/
theorem enclosed?_cons {opening closing : Char} (hplain : isPlain opening = true)
    (cs : List Char) :
    enclosed? opening closing (opening :: cs) = (closeMarks? opening closing 0 (marks cs)).map
      fun (inside, after) ↦ ⟨textOf inside, textOf after⟩ := by
  have hopening : [opening].all isPlain = true := by simpa using hplain
  have hmarks : marks (opening :: cs) = ⟨opening, .code⟩ :: marks cs :=
    (lexes_plain hopening).marks_eq cs
  rw [enclosed?, hmarks, ← closeFrom_eq]
  exact if_pos (isCode_self opening)

/-- A text that, put between brackets, is all that they enclose. -/
def Enclosed (opening closing : Char) (inside : List Char) : Prop :=
  enclosed? opening closing (opening :: (inside ++ [closing])) = some ⟨inside, []⟩

/-- What a pair of brackets encloses is enclosed by them wherever it stands. -/
theorem enclosed?_cons_eq_some_iff {opening closing : Char} (hopening : isPlain opening = true)
    (hclosing : isPlain closing = true) (hstar : closing ≠ '*') (hne : opening ≠ closing)
    {cs inside rest : List Char} :
    enclosed? opening closing (opening :: cs) = some ⟨inside, rest⟩ ↔
      cs = inside ++ closing :: rest ∧ Enclosed opening closing inside := by
  -- a region that is found at one place is found with any other text behind it
  have hmove {ds more : List Char}
      (h : enclosed? opening closing (opening :: ds) = some ⟨inside, more⟩) :
      ds = inside ++ closing :: more ∧ ∀ tail,
        enclosed? opening closing (opening :: (inside ++ closing :: tail)) =
          some ⟨inside, tail⟩ := by
    rw [enclosed?_cons hopening] at h
    obtain ⟨⟨ms, ns⟩, hclose, hcut⟩ := Option.map_eq_some_iff.mp h
    obtain ⟨rfl, rfl⟩ := Cut.mk.inj hcut
    have hmarks := closeMarks?_eq_some hclose
    have hds : ds = textOf ms ++ closing :: textOf ns := by
      rw [← textOf_marks ds, hmarks, textOf_append, textOf_cons]
    refine ⟨hds, fun tail ↦ ?_⟩
    rw [hds] at hmarks
    have htail := marksFrom_change_tail hclosing hstar hmarks (by simp [textOf]) tail
    rw [enclosed?_cons hopening, marks, htail, closeMarks?_change_tail hne hclose]
    simp
  constructor
  · intro h
    obtain ⟨hcs, hany⟩ := hmove h
    exact ⟨hcs, hany []⟩
  · rintro ⟨rfl, h⟩
    exact (hmove h).2 rest

end SuiteMigration.Java
