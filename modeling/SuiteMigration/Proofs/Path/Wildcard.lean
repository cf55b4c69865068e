import Mathlib.Data.List.Infix
import SuiteMigration.Path.Wildcard

/-!
What a wildcard pattern matches. A reader that keeps the last star only and tries the pattern behind
it on ever shorter ends of the text comes to an end on every text, and what it answers is the answer
of `wildcardMatch`. The star before the last one need not be tried again: where the text runs out
under the pattern behind a star, no shorter end of it can match either. Hence on a text without
stars the answer is yes exactly if the pattern stands for the text.
-/

set_option autoImplicit false
set_option relaxedAutoImplicit false

namespace SuiteMigration.Path

/-! ### What a pattern stands for -/

/-- A pattern stands for a text: a star for any characters, a question mark for one, and every other
character for itself. -/
inductive Matches : List Char → List Char → Prop
  | nil : Matches [] []
  | star {pattern rest : List Char} (part : List Char) (h : Matches pattern rest) :
      Matches ('*' :: pattern) (part ++ rest)
  | any {pattern rest : List Char} (c : Char) (h : Matches pattern rest) :
      Matches ('?' :: pattern) (c :: rest)
  | same {pattern rest : List Char} {c : Char} (hstar : c ≠ '*') (hany : c ≠ '?')
      (h : Matches pattern rest) : Matches (c :: pattern) (c :: rest)

theorem matches_nil_iff {text : List Char} : Matches [] text ↔ text = [] := by
  constructor
  · rintro ⟨⟩
    rfl
  · rintro rfl
    exact .nil

theorem matches_star_iff {pattern text : List Char} :
    Matches ('*' :: pattern) text ↔ ∃ rest, rest <:+ text ∧ Matches pattern rest := by
  constructor
  · intro h
    cases h with
    | star part hrest => exact ⟨_, List.suffix_append part _, hrest⟩
    | same hstar => exact absurd rfl hstar
  · rintro ⟨rest, ⟨part, rfl⟩, hrest⟩
    exact .star part hrest

theorem matches_cons_iff {q c : Char} (hq : q ≠ '*') {pattern rest : List Char} :
    Matches (q :: pattern) (c :: rest) ↔ (q = '?' ∨ q = c) ∧ Matches pattern rest := by
  constructor
  · intro h
    generalize htext : c :: rest = text at h
    cases h with
    | star => exact absurd rfl hq
    | any d h =>
      obtain ⟨-, rfl⟩ := List.cons.inj htext
      exact ⟨Or.inl rfl, h⟩
    | same _ _ h =>
      obtain ⟨rfl, rfl⟩ := List.cons.inj htext
      exact ⟨Or.inr rfl, h⟩
  · rintro ⟨hsame, h⟩
    by_cases hany : q = '?'
    · subst hany
      exact .any c h
    · obtain rfl := hsame.resolve_left hany
      exact .same hq hany h

/-- Nothing but stars stands for the empty text. -/
theorem matches_nil_text_iff {pattern : List Char} :
    Matches pattern [] ↔ pattern.all (· == '*') = true := by
  induction pattern with
  | nil => exact iff_of_true .nil rfl
  | cons q more ih =>
    by_cases hq : q = '*'
    · subst hq
      simp [matches_star_iff, List.suffix_nil, ih]
    · refine iff_of_false (fun h ↦ ?_) (by simp [hq])
      generalize htext : ([] : List Char) = text at h
      cases h with
      | star => exact hq rfl
      | any => cases htext
      | same => cases htext

/-! ### Answers of an attempt -/

/-- What an answer says. Yes means that the pattern stands for the text, and no that it stands for
no end of the text, so that no shorter one need be tried. -/
def Answers (pattern text : List Char) : Option Bool → Prop
  | some true => Matches pattern text
  | some false => ∀ rest, rest <:+ text → ¬ Matches pattern rest
  | none => ¬ Matches pattern text

theorem Answers.eq_some_true_iff {pattern text : List Char} {answer : Option Bool}
    (h : Answers pattern text answer) : answer = some true ↔ Matches pattern text := by
  constructor
  · rintro rfl
    exact h
  · intro hmatches
    match answer with
    | some true => rfl
    | some false => exact absurd hmatches (h text List.suffix_rfl)
    | none => exact absurd hmatches h

theorem wildcardAttempt_nil_text (pattern : List Char) :
    wildcardAttempt pattern [] = some (pattern.all (· == '*')) := by
  cases pattern <;> rfl

/-- The first answer is yes exactly if the pattern stands for some end of the text. -/
theorem firstAnswer_eq_true_iff {pattern text : List Char}
    (h : ∀ rest, rest <:+ text → Answers pattern rest (wildcardAttempt pattern rest)) :
    firstAnswer (wildcardAttempt pattern) text = true ↔
      ∃ rest, rest <:+ text ∧ Matches pattern rest := by
  induction text with
  | nil =>
    rw [firstAnswer, wildcardAttempt_nil_text, Option.getD_some, ← matches_nil_text_iff]
    simp [List.suffix_nil]
  | cons c more ih =>
    have hhere := h (c :: more) List.suffix_rfl
    have hmore := ih fun rest hrest ↦ h rest (hrest.trans (List.suffix_cons c more))
    rw [firstAnswer]
    cases hanswer : wildcardAttempt pattern (c :: more) with
    | none =>
      rw [hanswer] at hhere
      refine hmore.trans ⟨fun ⟨rest, hrest, hmatches⟩ ↦ ?_, fun ⟨rest, hrest, hmatches⟩ ↦ ?_⟩
      · exact ⟨rest, hrest.trans (List.suffix_cons c more), hmatches⟩
      · obtain rfl | hrest := List.suffix_cons_iff.mp hrest
        · exact absurd hmatches hhere
        · exact ⟨rest, hrest, hmatches⟩
    | some answer =>
      rw [hanswer] at hhere
      cases answer with
      | true => exact iff_of_true rfl ⟨_, List.suffix_rfl, hhere⟩
      | false =>
        exact iff_of_false Bool.false_ne_true fun ⟨rest, hrest, hmatches⟩ ↦
          hhere rest hrest hmatches

/-- An answer holds with one more character before the pattern and the text. -/
theorem Answers.cons {q c : Char} (hq : q ≠ '*') (hsame : q = '?' ∨ q = c)
    {pattern rest : List Char} {answer : Option Bool} (h : Answers pattern rest answer) :
    Answers (q :: pattern) (c :: rest) answer := by
  match answer with
  | none => exact fun hmatches ↦ h ((matches_cons_iff hq).mp hmatches).2
  | some true => exact (matches_cons_iff hq).mpr ⟨hsame, h⟩
  | some false =>
    intro shorter hshorter hmatches
    cases shorter with
    | nil =>
      rw [matches_nil_text_iff, List.all_cons, beq_false_of_ne hq] at hmatches
      cases hmatches
    | cons d more =>
      have hmore : more <:+ rest := by
        obtain heq | hshorter := List.suffix_cons_iff.mp hshorter
        · rw [(List.cons.inj heq).2]
        · exact (List.suffix_cons d more).trans hshorter
      exact h more hmore ((matches_cons_iff hq).mp hmatches).2

/-- The answer behind a star is final: if no end of the text goes with the rest of the pattern, then
no end of a shorter end does. -/
theorem Answers.star {pattern text : List Char}
    (h : ∀ rest, rest <:+ text → Answers pattern rest (wildcardAttempt pattern rest)) :
    Answers ('*' :: pattern) text (some (firstAnswer (wildcardAttempt pattern) text)) := by
  have hfirst := firstAnswer_eq_true_iff h
  cases hanswer : firstAnswer (wildcardAttempt pattern) text with
  | true => exact matches_star_iff.mpr (hfirst.mp hanswer)
  | false =>
    intro shorter hshorter hmatches
    obtain ⟨rest, hrest, hmatches⟩ := matches_star_iff.mp hmatches
    have htrue := hfirst.mpr ⟨rest, hrest.trans hshorter, hmatches⟩
    rw [hanswer] at htrue
    cases htrue

/-- An attempt answers rightly, unless a star of the pattern can meet a star of the text, which it
takes for an ordinary character. -/
theorem answers_wildcardAttempt {pattern text : List Char} (h : '*' ∉ text ∨ '*' ∉ pattern) :
    Answers pattern text (wildcardAttempt pattern text) := by
  induction pattern generalizing text with
  | nil =>
    cases text with
    | nil => exact .nil
    | cons c rest => exact fun hmatches ↦ List.cons_ne_nil c rest (matches_nil_iff.mp hmatches)
  | cons q pattern ih =>
    have htail {rest : List Char} (hrest : rest <:+ text) : '*' ∉ rest ∨ '*' ∉ pattern :=
      h.imp (fun hnot hmem ↦ hnot (hrest.subset hmem))
        fun hnot hmem ↦ hnot (List.mem_cons_of_mem _ hmem)
    cases text with
    | nil =>
      rw [wildcardAttempt_nil_text]
      cases hstars : (q :: pattern).all (· == '*') with
      | true => exact matches_nil_text_iff.mpr hstars
      | false =>
        intro rest hrest hmatches
        rw [List.suffix_nil.mp hrest, matches_nil_text_iff, hstars] at hmatches
        cases hmatches
    | cons c rest =>
      rw [wildcardAttempt]
      by_cases hsame : q = '?' ∨ q = c
      · have hq : q ≠ '*' := by
          rintro rfl
          obtain hany | rfl := hsame
          · cases hany
          · exact h.elim (fun hnot ↦ hnot List.mem_cons_self) fun hnot ↦ hnot List.mem_cons_self
        rw [if_pos (by simpa using hsame)]
        exact (ih (htail (List.suffix_cons c rest))).cons hq hsame
      · rw [if_neg (by simpa using hsame)]
        by_cases hq : q = '*'
        · subst hq
          rw [if_pos (beq_self_eq_true _)]
          exact Answers.star fun shorter hshorter ↦ ih (htail hshorter)
        · rw [if_neg (by simpa using hq)]
          exact fun hmatches ↦ hsame ((matches_cons_iff hq).mp hmatches).1

theorem wildcardMatch_eq_true_iff {pattern text : List Char} (h : '*' ∉ text ∨ '*' ∉ pattern) :
    wildcardMatch text pattern = true ↔ Matches pattern text := by
  rw [wildcardMatch, ← (answers_wildcardAttempt h).eq_some_true_iff]
  cases wildcardAttempt pattern text <;> simp

/-! ### Patterns for endings -/

/-- A pattern without wildcards stands for itself only. -/
theorem matches_literal_iff {pattern text : List Char} (h : ∀ q ∈ pattern, q ≠ '*' ∧ q ≠ '?') :
    Matches pattern text ↔ text = pattern := by
  induction pattern generalizing text with
  | nil => exact matches_nil_iff
  | cons q pattern ih =>
    obtain ⟨hstar, hany⟩ := h q List.mem_cons_self
    cases text with
    | nil =>
      rw [matches_nil_text_iff, List.all_cons, beq_false_of_ne hstar]
      exact iff_of_false Bool.false_ne_true (List.cons_ne_nil q pattern).symm
    | cons c rest =>
      rw [matches_cons_iff hstar, ih fun d hd ↦ h d (List.mem_cons_of_mem _ hd), or_iff_right hany,
        List.cons.injEq, eq_comm (a := q)]

/-- A star and an ending match the texts that end so. A star at the start of the text is taken for
the star of the pattern, though, and then nothing but the ending may follow. -/
theorem wildcardMatch_star_iff {ending text : List Char} (h : ∀ q ∈ ending, q ≠ '*' ∧ q ≠ '?') :
    wildcardMatch text ('*' :: ending) = true ↔
      text = '*' :: ending ∨ ending <:+ text ∧ text.head? ≠ some '*' := by
  have hnot : '*' ∉ ending := fun hmem ↦ (h '*' hmem).1 rfl
  cases text with
  | nil =>
    rw [wildcardMatch_eq_true_iff (Or.inl List.not_mem_nil), matches_star_iff]
    simp [List.suffix_nil, matches_literal_iff h, eq_comm]
  | cons c rest =>
    by_cases hc : c = '*'
    · subst hc
      have hsame : wildcardMatch ('*' :: rest) ('*' :: ending) = wildcardMatch rest ending := rfl
      rw [hsame, wildcardMatch_eq_true_iff (Or.inr hnot), matches_literal_iff h]
      simp
    · have hstar : wildcardMatch (c :: rest) ('*' :: ending) =
          firstAnswer (wildcardAttempt ending) (c :: rest) := by
        rw [wildcardMatch, wildcardAttempt]
        simp [Ne.symm hc]
      rw [hstar, firstAnswer_eq_true_iff fun _ _ ↦ answers_wildcardAttempt (Or.inr hnot)]
      simp [matches_literal_iff h, hc]

/-! ### The reader with one star -/

/-- Where a reader of a text and a pattern stands: what is left of both, and, once a star has been
met, the pattern behind the last one and the end of the text on which it is being tried. -/
structure Scan where
  text : List Char
  pattern : List Char
  lastStar : Option (List Char × List Char)

namespace Scan

def start (text pattern : List Char) : Scan :=
  ⟨text, pattern, none⟩

/-- Goes back to the last star and tries the pattern behind it on the next shorter end of the text;
without a star the answer is no. -/
def goBack : Option (List Char × List Char) → Scan ⊕ Bool
  | none => .inr false
  | some (pattern, tried) => .inl ⟨tried.tail, pattern, some (pattern, tried.tail)⟩

/-- One step of the reader, or its answer. -/
def step (s : Scan) : Scan ⊕ Bool :=
  match s.text, s.pattern with
  | [], pattern => .inr (pattern.all (· == '*'))
  | _ :: _, [] => goBack s.lastStar
  | c :: rest, q :: pattern =>
      if q == '?' || q == c then .inl ⟨rest, pattern, s.lastStar⟩
      else if q == '*' then .inl ⟨c :: rest, pattern, some (pattern, c :: rest)⟩
      else goBack s.lastStar

/-- The reader comes to an end with an answer. -/
inductive Ends : Scan ⊕ Bool → Bool → Prop
  | answer (b : Bool) : Ends (.inr b) b
  | step {s : Scan} {b : Bool} (h : Ends s.step b) : Ends (.inl s) b

/-- The reader ends in one way only. -/
theorem Ends.unique {s : Scan ⊕ Bool} {b other : Bool} (h : Ends s b) (hother : Ends s other) :
    b = other := by
  induction h with
  | answer b =>
    cases hother
    rfl
  | step _ ih =>
    cases hother with
    | step hother => exact ih hother

/-- How a reader goes on where an attempt on the same text and pattern has the given answer: it ends
with it, and where there is none it goes back. -/
def Follows (s : Scan) : Option Bool → Prop
  | some b => Ends (.inl s) b
  | none => ∀ b, Ends (goBack s.lastStar) b → Ends (.inl s) b

theorem Follows.of_step {s next : Scan} {answer : Option Bool} (h : next.Follows answer)
    (hstep : s.step = .inl next) (hstar : next.lastStar = s.lastStar) : s.Follows answer := by
  match answer with
  | some b => exact .step (hstep ▸ h)
  | none => exact fun b hb ↦ .step (hstep ▸ h b (hstar ▸ hb))

theorem follows_of_goBack {s : Scan} (hstep : s.step = goBack s.lastStar) : s.Follows none :=
  fun _ h ↦ .step (hstep ▸ h)

/-- Right behind a star the reader tries the ends of the text one after another. -/
theorem ends_firstAnswer {pattern : List Char}
    (h : ∀ text lastStar, Follows ⟨text, pattern, lastStar⟩ (wildcardAttempt pattern text))
    (text : List Char) :
    Ends (.inl ⟨text, pattern, some (pattern, text)⟩)
      (firstAnswer (wildcardAttempt pattern) text) := by
  induction text with
  | nil =>
    have hend := h [] (some (pattern, []))
    rw [wildcardAttempt_nil_text] at hend
    rw [firstAnswer, wildcardAttempt_nil_text]
    exact hend
  | cons c rest ih =>
    have hhere := h (c :: rest) (some (pattern, c :: rest))
    rw [firstAnswer]
    cases hanswer : wildcardAttempt pattern (c :: rest) with
    | some b =>
      rw [hanswer] at hhere
      exact hhere
    | none =>
      rw [hanswer] at hhere
      exact hhere _ ih

/-- The reader follows an attempt, whatever star it has met before. -/
theorem follows_wildcardAttempt (text pattern : List Char)
    (lastStar : Option (List Char × List Char)) :
    Follows ⟨text, pattern, lastStar⟩ (wildcardAttempt pattern text) := by
  induction pattern generalizing text lastStar with
  | nil =>
    cases text with
    | nil => exact .step (.answer true)
    | cons c rest => exact follows_of_goBack rfl
  | cons q pattern ih =>
    cases text with
    | nil => exact .step (.answer _)
    | cons c rest =>
      have hstep : step ⟨c :: rest, q :: pattern, lastStar⟩ =
          if q == '?' || q == c then .inl ⟨rest, pattern, lastStar⟩
          else if q == '*' then .inl ⟨c :: rest, pattern, some (pattern, c :: rest)⟩
          else goBack lastStar := rfl
      rw [wildcardAttempt]
      split
      next hsame =>
        rw [if_pos hsame] at hstep
        exact (ih rest lastStar).of_step hstep rfl
      next hother =>
        rw [if_neg hother] at hstep
        split
        next hstar =>
          rw [if_pos hstar] at hstep
          exact .step (hstep ▸ ends_firstAnswer ih (c :: rest))
        next hplain =>
          rw [if_neg hplain] at hstep
          exact follows_of_goBack hstep

/-- The reader ends on every text and pattern, with the answer of `wildcardMatch`. -/
theorem ends_wildcardMatch (text pattern : List Char) :
    Ends (.inl (start text pattern)) (wildcardMatch text pattern) := by
  have hfollows := follows_wildcardAttempt text pattern none
  unfold wildcardMatch
  cases hanswer : wildcardAttempt pattern text with
  | some b =>
    rw [hanswer] at hfollows
    exact hfollows
  | none =>
    rw [hanswer] at hfollows
    exact hfollows false (.answer false)

end Scan

/-- The reader ends with one answer on every text and pattern, that of `wildcardMatch`; and on a
text without stars the answer is yes exactly if the pattern stands for the text. -/
theorem scan_answers_matches (text pattern : List Char) (h : '*' ∉ text) :
    (∀ answer, Scan.Ends (.inl (.start text pattern)) answer ↔
        answer = wildcardMatch text pattern) ∧
      (wildcardMatch text pattern = true ↔ Matches pattern text) := by
  refine ⟨fun answer ↦ ⟨fun hends ↦ ?_, ?_⟩, wildcardMatch_eq_true_iff (Or.inl h)⟩
  · exact hends.unique (Scan.ends_wildcardMatch text pattern)
  · rintro rfl
    exact Scan.ends_wildcardMatch text pattern

/-- Three stars; behind the last of them the reader goes back once from the middle of what stands
there. -/
theorem scan_answers_matches_three_stars :
    let text := "src/pages/LoginPage.abc.java".toList
    let pattern := "*/*Page.*a?a".toList
    '*' ∉ text ∧ Scan.Ends (.inl (.start text pattern)) true ∧ Matches pattern text := by
  intro text pattern
  have h : '*' ∉ text := by decide
  have hmatch : wildcardMatch text pattern = true := by decide +kernel
  obtain ⟨hends, hmatches⟩ := scan_answers_matches text pattern h
  exact ⟨h, (hends true).mpr hmatch.symm, hmatches.mp hmatch⟩

end SuiteMigration.Path
