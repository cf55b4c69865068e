import SuiteMigration.Java.Outline
import SuiteMigration.Proofs.Java.Step

/-!
Texts without their comments. A comment leaves white space behind, so removing comments joins
nothing: the marks of the text that is left are the marks of the text before, without those of the
comments. Cuts at code characters and brackets are then the same with comments and without.
-/

set_option autoImplicit false
set_option relaxedAutoImplicit false

namespace SuiteMigration.Java

/-- What a mark becomes when comments are removed. -/
def Mark.uncommented? (mark : Mark) : Option Mark :=
  match mark.kind with
  | .code | .literal => some mark
  | .comment => none
  | .lineEnd => some ⟨'\n', .code⟩
  | .blockEnd => some ⟨' ', .code⟩

def uncommented (ms : List Mark) : List Mark :=
  ms.filterMap Mark.uncommented?

@[simp] theorem uncommented_nil : uncommented [] = [] := rfl

@[simp] theorem uncommented_append (ms ns : List Mark) :
    uncommented (ms ++ ns) = uncommented ms ++ uncommented ns :=
  List.filterMap_append

@[simp] theorem uncommented_cons_code (c : Char) (ms : List Mark) :
    uncommented (⟨c, .code⟩ :: ms) = ⟨c, .code⟩ :: uncommented ms := rfl

theorem textOf_uncommented (ms : List Mark) :
    textOf (uncommented ms) = ms.flatMap Mark.withoutComment := by
  induction ms with
  | nil => rfl
  | cons mark rest ih =>
    obtain ⟨c, kind⟩ := mark
    rw [List.flatMap_cons, ← ih]
    cases kind <;> rfl

theorem uncommented_eq_self {ms : List Mark}
    (h : ∀ mark ∈ ms, mark.kind = .code ∨ mark.kind = .literal) : uncommented ms = ms := by
  induction ms with
  | nil => rfl
  | cons mark rest ih =>
    have hkept : mark.uncommented? = some mark := by
      rcases h mark List.mem_cons_self with hkind | hkind <;> rw [Mark.uncommented?, hkind]
    rw [uncommented, List.filterMap_cons_some hkept]
    exact congrArg _ (ih fun m hm ↦ h m (List.mem_cons_of_mem _ hm))

theorem kind_of_mem_uncommented {ms : List Mark} {mark : Mark} (h : mark ∈ uncommented ms) :
    mark.kind = .code ∨ mark.kind = .literal := by
  obtain ⟨⟨c, kind⟩, _, hkept⟩ := List.mem_filterMap.mp h
  cases kind with
  | comment => cases hkept
  | literal => exact Or.inr (congrArg Mark.kind (Option.some.inj hkept)).symm
  | code | lineEnd | blockEnd => exact Or.inl (congrArg Mark.kind (Option.some.inj hkept)).symm

theorem uncommented_uncommented (ms : List Mark) : uncommented (uncommented ms) = uncommented ms :=
  uncommented_eq_self fun _ ↦ kind_of_mem_uncommented

theorem uncommented_eq_nil {ms : List Mark} (h : ∀ mark ∈ ms, mark.kind = .comment) :
    uncommented ms = [] := by
  refine List.filterMap_eq_nil_iff.mpr fun mark hmark ↦ ?_
  rw [Mark.uncommented?, h mark hmark]

/-! ### Marks without comments -/

theorem eq_nil_of_prefix_cons {p rest : List Char} {c : Char} (hc : c ∉ p) (h : p <+: c :: rest) :
    p = [] := by
  cases p with
  | nil => rfl
  | cons d more =>
    obtain ⟨rfl, _⟩ := List.cons_prefix_cons.mp h
    exact absurd List.mem_cons_self hc

/-- A sequence without white space at the start of a text without comments is at the start of the
text itself, and the text does not start inside a comment. -/
theorem prefix_of_uncommented {region : Region} {cs p : List Char} (hspace : ' ' ∉ p)
    (hfeed : '\n' ∉ p) (h : p <+: textOf (uncommented (marksFrom true region cs))) :
    p <+: cs ∧ (region.isComment = true → p = []) := by
  induction hlength : cs.length using Nat.strongRecOn generalizing region cs p with
  | ind n ih =>
    by_cases hne : cs = []
    · subst hne
      rw [marksFrom_nil] at h
      exact ⟨h, fun _ ↦ List.prefix_nil.mp h⟩
    obtain ⟨front, next, rest, hstep⟩ := exists_stepsTo region hne
    have hrest {q : List Char} (hspace : ' ' ∉ q) (hfeed : '\n' ∉ q)
        (hq : q <+: textOf (uncommented (marksFrom true next rest))) :=
      ih rest.length (hlength ▸ hstep.length_lt) hspace hfeed hq rfl
    rw [hstep.marksFrom_eq, uncommented_append, textOf_append] at h
    -- marks that are kept are at the start of both texts
    have hkept (hfront : uncommented front = front) : p <+: cs := by
      rw [hfront] at h
      obtain ⟨tail, htail⟩ := h
      rw [hstep.text_eq]
      rcases List.append_eq_append_iff.mp htail with ⟨more, hmore, _⟩ | ⟨more, rfl, hmore⟩
      · exact hmore ▸ (List.prefix_append _ _).trans (List.prefix_append _ _)
      · rw [List.mem_append, not_or] at hspace hfeed
        exact (List.prefix_append_right_inj _).mpr
          (hrest hspace.2 hfeed.2 ⟨tail, hmore.symm⟩).1
    have hnil (hp : p = []) : p <+: cs ∧ (region.isComment = true → p = []) :=
      ⟨hp ▸ List.nil_prefix, fun _ ↦ hp⟩
    cases hstep.step with
    | code c => exact ⟨hkept rfl, nofun⟩
    | literal hregion _ hkinds =>
      refine ⟨hkept (uncommented_eq_self fun mark hmark ↦ Or.inr (hkinds mark hmark)), ?_⟩
      rw [hregion]
      exact nofun
    | comment _ hafter hkinds =>
      rw [uncommented_eq_nil hkinds] at h
      exact hnil ((hrest hspace hfeed h).2 hafter)
    | lineEnd => exact hnil (eq_nil_of_prefix_cons hfeed h)
    | blockEnd => exact hnil (eq_nil_of_prefix_cons hspace h)

theorem continues_uncommented (region : Region) (rest : List Char) :
    Continues rest (textOf (uncommented (marksFrom true region rest))) := by
  constructor
  · intro p hp h
    simp only [List.mem_cons, List.not_mem_nil, or_false] at hp
    refine (prefix_of_uncommented ?_ ?_ h).1 <;> rcases hp with rfl | rfl | rfl <;> decide
  · rintro rfl
    rw [marksFrom_nil]
    rfl

/-- The marks of a text without its comments. -/
theorem marksFrom_uncommented (region : Region) (cs : List Char) :
    marksFrom true region.outside (textOf (uncommented (marksFrom true region cs))) =
      uncommented (marksFrom true region cs) := by
  induction hlength : cs.length using Nat.strongRecOn generalizing region cs with
  | ind n ih =>
    by_cases hne : cs = []
    · subst hne
      rw [marksFrom_nil]
      exact marksFrom_nil _ _
    obtain ⟨front, next, rest, hstep⟩ := exists_stepsTo region hne
    have hrest := ih rest.length (hlength ▸ hstep.length_lt) next rest rfl
    have hcontinues := continues_uncommented next rest
    rw [hstep.marksFrom_eq, uncommented_append, textOf_append]
    cases hstep.step with
    | code c =>
      rw [uncommented_eq_self (by simp)]
      refine (hstep.marks_eq _ hcontinues).trans ?_
      exact congrArg _ hrest
    | literal hregion hafter hkinds =>
      have houtside : next.outside = next := if_neg (by rw [hafter]; exact Bool.false_ne_true)
      rw [uncommented_eq_self fun mark hmark ↦ Or.inr (hkinds mark hmark), Region.outside,
        hregion, if_neg Bool.false_ne_true, hstep.marks_eq _ hcontinues]
      rw [houtside] at hrest
      rw [hrest]
    | comment hregion hafter hkinds =>
      have houtside : next.outside = .code := if_pos hafter
      rw [houtside] at hrest
      rw [uncommented_eq_nil hkinds, hregion]
      exact hrest
    | lineEnd => exact congrArg _ hrest
    | blockEnd => exact congrArg _ hrest

section Own

variable {ms before after : List Mark}

theorem Own.uncommented (h : Own ms) : Own (uncommented ms) := by
  have hmarks := marksFrom_uncommented .code (textOf ms)
  change marks (textOf (Java.uncommented (marks (textOf ms)))) =
    Java.uncommented (marks (textOf ms)) at hmarks
  rwa [h] at hmarks

theorem Own.stripCommentChars_eq (h : Own ms) :
    stripCommentChars (textOf ms) = textOf (Java.uncommented ms) := by
  rw [stripCommentChars, h, textOf_uncommented]

end Own

/-! ### Cuts -/

theorem uncommented_cons (mark : Mark) (ms : List Mark) :
    uncommented (mark :: ms) = mark.uncommented?.toList ++ uncommented ms := by
  cases h : mark.uncommented? with
  | none => rw [uncommented, List.filterMap_cons_none h]; rfl
  | some kept => rw [uncommented, List.filterMap_cons_some h]; rfl

/-- What is left of a mark is the mark itself or white space. -/
theorem eq_or_blank_of_mem {mark kept : Mark} (h : kept ∈ mark.uncommented?) :
    kept = mark ∨ kept.char = ' ' ∨ kept.char = '\n' := by
  obtain ⟨c, kind⟩ := mark
  cases kind with
  | code | literal => exact Or.inl (Option.some.inj h).symm
  | comment => cases h
  | lineEnd => exact Or.inr (Or.inr (congrArg Mark.char (Option.some.inj h)).symm)
  | blockEnd => exact Or.inr (Or.inl (congrArg Mark.char (Option.some.inj h)).symm)

/-- Removing comments adds no code but white space. -/
theorem passes_uncommented {p : Char → Bool} (hspace : p ' ' = false) (hfeed : p '\n' = false)
    {ms : List Mark} (h : ∀ mark ∈ ms, (mark.kind == .code && p mark.char) = false) :
    ∀ mark ∈ uncommented ms, (mark.kind == .code && p mark.char) = false := by
  intro kept hkept
  obtain ⟨mark, hmark, hmem⟩ := List.mem_filterMap.mp hkept
  rcases eq_or_blank_of_mem hmem with rfl | hchar | hchar
  · exact h kept hmark
  · rw [hchar, hspace, Bool.and_false]
  · rw [hchar, hfeed, Bool.and_false]

theorem splitMarks?_uncommented {p : Char → Bool} (hspace : p ' ' = false) (hfeed : p '\n' = false)
    (ms : List Mark) :
    splitMarks? p (uncommented ms) = (splitMarks? p ms).map fun (before, found, after) ↦
      (uncommented before, found, uncommented after) := by
  cases hsplit : splitMarks? p ms with
  | none =>
    exact splitMarks?_eq_none_iff.mpr
      (passes_uncommented hspace hfeed (splitMarks?_eq_none_iff.mp hsplit))
  | some found =>
    obtain ⟨before, c, after⟩ := found
    obtain ⟨rfl, hc, hbefore⟩ := splitMarks?_eq_some hsplit
    rw [uncommented_append, uncommented_cons_code]
    exact splitMarks?_append hc (passes_uncommented hspace hfeed hbefore) _

theorem closeMarks?_uncommented {opening closing : Char} (hopening : opening ∉ [' ', '\n'])
    (hclosing : closing ∉ [' ', '\n']) (depth : Nat) (ms : List Mark) :
    closeMarks? opening closing depth (uncommented ms) =
      (closeMarks? opening closing depth ms).map fun (inside, after) ↦
        (uncommented inside, uncommented after) := by
  fun_induction closeMarks? opening closing depth ms with
  | case1 => rfl
  | case2 depth mark rest hopen ih =>
    obtain rfl := eq_of_isCode hopen
    rw [uncommented_cons_code, closeMarks?_cons_opening _ _ hopen, ih, Option.map_map,
      Option.map_map]
    rfl
  | case3 mark rest hopen hclose =>
    obtain rfl := eq_of_isCode hclose
    rw [uncommented_cons_code,
      closeMarks?_zero_cons_closing _ (Bool.eq_false_iff.mpr hopen) hclose]
    rfl
  | case4 mark rest hopen hclose inner ih =>
    obtain rfl := eq_of_isCode hclose
    rw [uncommented_cons_code,
      closeMarks?_cons_closing _ _ (Bool.eq_false_iff.mpr hopen) hclose, ih, Option.map_map,
      Option.map_map]
    rfl
  | case5 depth mark rest hopen hclose ih =>
    -- white space for a comment is no bracket
    have hother : ∀ kept ∈ mark.uncommented?.toList,
        kept.isCode opening = false ∧ kept.isCode closing = false := by
      intro kept hkept
      have hblank (hchar : kept.char ∈ [' ', '\n']) {c : Char} (hc : c ∉ [' ', '\n']) :
          kept.isCode c = false := by
        have hne : kept.char ≠ c := fun heq ↦ hc (heq ▸ hchar)
        simp [Mark.isCode, hne]
      rcases eq_or_blank_of_mem (Option.mem_toList.mp hkept) with rfl | hchar | hchar
      · exact ⟨Bool.eq_false_iff.mpr hopen, Bool.eq_false_iff.mpr hclose⟩
      · exact ⟨hblank (by simp [hchar]) hopening, hblank (by simp [hchar]) hclosing⟩
      · exact ⟨hblank (by simp [hchar]) hopening, hblank (by simp [hchar]) hclosing⟩
    rw [uncommented_cons, closeMarks?_append_other _ _ hother, ih, Option.map_map, Option.map_map]
    refine congrArg (fun f ↦ Option.map f _) (funext fun pair ↦ ?_)
    exact Prod.ext (uncommented_cons mark pair.1).symm rfl

end SuiteMigration.Java
