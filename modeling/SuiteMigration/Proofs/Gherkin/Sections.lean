import Mathlib.Data.List.Flatten
import Mathlib.Data.List.Infix
import SuiteMigration.Gherkin.Parser
import SuiteMigration.Proofs.Text.Lines

/-!
The sections of a feature text. Outside attached texts a heading opens a section, and the step lines
below it belong to it. A feature is read anew with each of its headings, and there is one
background; so a heading of a feature overwrites all sections above it, and a heading of a
background those of the backgrounds above. No step line is lost exactly if the sections that are
overwritten have none.
-/

set_option autoImplicit false
set_option relaxedAutoImplicit false

namespace SuiteMigration.Gherkin

open SuiteMigration.Text

/-! ### Lines and what they start with -/

/-- The lines that stand outside attached texts. An attached text goes up to the line that is its
delimiter. -/
def linesOutside : Option String → List String → List String
  | _, [] => []
  | some delimiter, line :: rest =>
      linesOutside (if line == delimiter then none else some delimiter) rest
  | none, line :: rest =>
      match documentDelimiter? line with
      | some delimiter => linesOutside (some delimiter) rest
      | none => line :: linesOutside none rest

/-- The trimmed lines of a text, without those of attached texts. -/
def outerLines (text : String) : List String :=
  linesOutside none ((lines text).map trim)

/-- The steps on the lines of a text, keyword and text. -/
def stepLines (text : String) : List (String × String) :=
  (outerLines text).filterMap splitStep?

/-- The part that a heading opens. -/
def openedPart? (line : String) : Option Part :=
  if startsWith line "Feature:" then some .feature
  else if startsWith line "Background:" then some .background
  else if startsWith line "Rule:" then some .rule
  else if (heading? line).isSome then some .scenario
  else if startsWith line "Examples:" || startsWith line "Scenarios:" then some .examples
  else none

def headingStarts : List String :=
  ["Feature:", "Background:", "Rule:", "Scenario Outline:", "Scenario Template:", "Scenario:",
    "Example:", "Examples:", "Scenarios:"]

/-- Comments, tags and rows of tables. -/
def markStarts : List String :=
  ["#", "@", "|"]

def documentStarts : List String :=
  ["```", "\"\"\""]

/-- Two texts of which none goes on with the other. -/
def Apart (start other : String) : Prop :=
  ¬ start.toList <+: other.toList ∧ ¬ other.toList <+: start.toList

instance (start other : String) : Decidable (Apart start other) :=
  inferInstanceAs (Decidable (_ ∧ _))

/-- A line with one start has none of those apart from it. -/
theorem not_exists_startsWith {line start : String} {others : List String}
    (h : startsWith line start = true) (hothers : ∀ other ∈ others, Apart start other) :
    ¬ ∃ other ∈ others, startsWith line other = true := by
  rintro ⟨other, hother, hline⟩
  obtain hprefix | hprefix :=
    List.prefix_or_prefix_of_prefix (startsWith_iff.mp h) (startsWith_iff.mp hline)
  · exact (hothers other hother).1 hprefix
  · exact (hothers other hother).2 hprefix

theorem isSome_afterStart? (start line : String) :
    (afterStart? start line).isSome = startsWith line start :=
  Option.isSome_map

theorem exists_startsWith_of_splitStep? {line : String} (h : (splitStep? line).isSome = true) :
    ∃ keyword ∈ stepKeywords, startsWith line keyword = true := by
  obtain ⟨step, hstep⟩ := Option.isSome_iff_exists.mp h
  obtain ⟨keyword, hkeyword, hmatch⟩ := List.exists_of_findSome?_eq_some hstep
  refine ⟨keyword, hkeyword, ?_⟩
  split at hmatch
  next rest hrest => rw [Text.startsWith, Chars.startsWith, hrest]; rfl
  next => cases hmatch

theorem exists_startsWith_of_openedPart? {line : String} (h : (openedPart? line).isSome = true) :
    ∃ start ∈ headingStarts, startsWith line start = true := by
  unfold openedPart? at h
  split at h
  next hline => exact ⟨_, by decide, hline⟩
  split at h
  next hline => exact ⟨_, by decide, hline⟩
  split at h
  next hline => exact ⟨_, by decide, hline⟩
  split at h
  next hline =>
    obtain ⟨found, hfound⟩ := Option.isSome_iff_exists.mp hline
    obtain ⟨start, hstart, hmatch⟩ := List.exists_of_findSome?_eq_some hfound
    obtain ⟨name, hname, -⟩ := Option.map_eq_some_iff.mp hmatch
    refine ⟨start.1, ?_, by rw [← isSome_afterStart?, hname, Option.isSome_some]⟩
    clear hmatch hname
    revert start
    decide
  split at h
  next hline =>
    obtain hline | hline := Bool.or_eq_true_iff.mp hline
    · exact ⟨_, by decide, hline⟩
    · exact ⟨_, by decide, hline⟩
  next => cases h

theorem exists_startsWith_of_documentDelimiter? {line : String}
    (h : (documentDelimiter? line).isSome = true) :
    ∃ start ∈ documentStarts, startsWith line start = true := by
  unfold documentDelimiter? at h
  split at h
  next hline => exact ⟨_, by decide, hline⟩
  split at h
  next hline => exact ⟨_, by decide, hline⟩
  next => cases h

/-- A heading is no step. -/
theorem splitStep?_eq_none_of_openedPart? {line : String} (h : (openedPart? line).isSome = true) :
    splitStep? line = none := by
  have hapart : ∀ start ∈ headingStarts, ∀ keyword ∈ stepKeywords, Apart start keyword := by decide
  obtain ⟨start, hstart, hline⟩ := exists_startsWith_of_openedPart? h
  exact Option.not_isSome_iff_eq_none.mp
    (mt exists_startsWith_of_splitStep? (not_exists_startsWith hline (hapart start hstart)))

/-- A comment, a tag or a row is neither a heading nor a step, and it attaches no text. -/
theorem unread_of_mark {line mark : String} (hmark : mark ∈ markStarts)
    (h : startsWith line mark = true) :
    openedPart? line = none ∧ splitStep? line = none ∧ documentDelimiter? line = none := by
  have hheadings : ∀ mark ∈ markStarts, ∀ start ∈ headingStarts, Apart mark start := by decide
  have hkeywords : ∀ mark ∈ markStarts, ∀ keyword ∈ stepKeywords, Apart mark keyword := by decide
  have hdocuments : ∀ mark ∈ markStarts, ∀ start ∈ documentStarts, Apart mark start := by decide
  refine ⟨?_, ?_, ?_⟩
  · exact Option.not_isSome_iff_eq_none.mp (mt exists_startsWith_of_openedPart?
      (not_exists_startsWith h (hheadings mark hmark)))
  · exact Option.not_isSome_iff_eq_none.mp (mt exists_startsWith_of_splitStep?
      (not_exists_startsWith h (hkeywords mark hmark)))
  · exact Option.not_isSome_iff_eq_none.mp (mt exists_startsWith_of_documentDelimiter?
      (not_exists_startsWith h (hdocuments mark hmark)))

/-! ### Sections -/

/-- A part of a feature text with the steps on its lines. -/
structure Section where
  part : Part
  steps : List (String × String)
  deriving DecidableEq, Repr

/-- The section with the step of a line, if it is a step line. -/
def Section.withLine (a : Section) (line : String) : Section :=
  { a with steps := a.steps ++ (splitStep? line).toList }

/-- The sections from the one that is open. -/
def sectionsFrom (current : Section) : List String → List Section
  | [] => [current]
  | line :: rest =>
      match openedPart? line with
      | some part => current :: sectionsFrom ⟨part, []⟩ rest
      | none => sectionsFrom (current.withLine line) rest

/-- The sections of a text; what stands above the first heading counts as one of a feature. -/
def sections (text : String) : List Section :=
  sectionsFrom ⟨.feature, []⟩ (outerLines text)

theorem flatMap_steps_sectionsFrom (current : Section) (ls : List String) :
    (sectionsFrom current ls).flatMap Section.steps = current.steps ++ ls.filterMap splitStep? := by
  induction ls generalizing current with
  | nil => simp [sectionsFrom]
  | cons line rest ih =>
    rw [sectionsFrom]
    cases hpart : openedPart? line with
    | some part =>
      have hstep := splitStep?_eq_none_of_openedPart? (Option.isSome_of_eq_some hpart)
      rw [List.filterMap_cons_none hstep, List.flatMap_cons, ih, List.nil_append]
    | none =>
      dsimp only
      rw [ih, Section.withLine]
      cases hstep : splitStep? line with
      | none => simp [hstep]
      | some step => simp [hstep]

/-- The step lines of a text are those of its sections. -/
theorem flatMap_steps_sections (text : String) :
    (sections text).flatMap Section.steps = stepLines text := by
  rw [sections, flatMap_steps_sectionsFrom]
  rfl

/-! ### What is overwritten -/

/-- Whether the heading of a section overwrites a section above it. -/
def Section.overwrites (a above : Section) : Bool :=
  a.part == .feature || (a.part == .background && above.part == .background)

/-- The sections that no later one overwrites. -/
def surviving : List Section → List Section
  | [] => []
  | a :: rest => if rest.any (·.overwrites a) then surviving rest else a :: surviving rest

/-- Sections of which none overwrites the steps of one above it. -/
def StepsSpared (ss : List Section) : Prop :=
  ss.Pairwise fun above a ↦ a.overwrites above = true → above.steps = []

instance (ss : List Section) : Decidable (StepsSpared ss) :=
  inferInstanceAs (Decidable (List.Pairwise _ ss))

theorem surviving_concat (ss : List Section) (a : Section) :
    surviving (ss ++ [a]) = (surviving ss).filter (fun above ↦ !a.overwrites above) ++ [a] := by
  induction ss with
  | nil => rfl
  | cons b rest ih =>
    rw [List.cons_append, surviving, surviving, List.any_append, ih]
    cases hrest : rest.any (·.overwrites b) with
    | true => rfl
    | false =>
      cases ha : a.overwrites b with
      | true => simp [ha]
      | false => simp [ha]

theorem surviving_sublist (ss : List Section) : (surviving ss).Sublist ss := by
  induction ss with
  | nil => exact List.Sublist.slnil
  | cons a rest ih =>
    rw [surviving]
    split
    · exact ih.cons a
    · exact ih.cons_cons a

/-- The steps that survive are all there are exactly if no heading overwrites steps. -/
theorem flatMap_steps_surviving_eq_iff (ss : List Section) :
    (surviving ss).flatMap Section.steps = ss.flatMap Section.steps ↔ StepsSpared ss := by
  induction ss with
  | nil => exact iff_of_true rfl List.Pairwise.nil
  | cons a rest ih =>
    rw [StepsSpared, List.pairwise_cons, ← StepsSpared, ← ih, surviving, List.flatMap_cons]
    split
    next hover =>
      obtain ⟨b, hb, hover⟩ := List.any_eq_true.mp hover
      have hle := ((surviving_sublist rest).flatMap Section.steps).length_le
      constructor
      · intro heq
        have hlength := congrArg List.length heq
        rw [List.length_append] at hlength
        have hnil : a.steps = [] := List.eq_nil_of_length_eq_zero (by omega)
        rw [hnil, List.nil_append] at heq
        exact ⟨fun _ _ _ ↦ hnil, heq⟩
      · rintro ⟨hnil, heq⟩
        rw [hnil b hb hover, List.nil_append, heq]
    next hover =>
      have hnone : ∀ b ∈ rest, b.overwrites a = true → a.steps = [] := fun b hb hb' ↦
        absurd (List.any_eq_true.mpr ⟨b, hb, hb'⟩) hover
      rw [List.flatMap_cons, List.append_right_inj]
      exact (and_iff_right hnone).symm

/-- The steps of the surviving sections of a part, section by section. -/
def kept (ss : List Section) (part : Part) : List (List (String × String)) :=
  ((surviving ss).filter (·.part == part)).map Section.steps

theorem kept_concat (ss : List Section) (a : Section) (part : Part) :
    kept (ss ++ [a]) part =
      (if a.part = .feature ∨ a.part = .background ∧ part = .background then []
        else kept ss part) ++ if a.part = part then [a.steps] else [] := by
  have hlast : (([a].filter (·.part == part)).map Section.steps) =
      if a.part = part then [a.steps] else [] := by
    by_cases hpart : a.part = part <;> simp [hpart]
  rw [kept, surviving_concat, List.filter_append, List.map_append, hlast, List.filter_filter]
  refine congrArg (· ++ _) ?_
  split
  next hover =>
    rw [List.map_eq_nil_iff, List.filter_eq_nil_iff]
    intro b _
    obtain hover | ⟨hover, rfl⟩ := hover
    · simp [Section.overwrites, hover]
    · by_cases hb : b.part = .background <;> simp [Section.overwrites, hover, hb]
  next hover =>
    rw [not_or, not_and] at hover
    rw [kept]
    refine congrArg _ (List.filter_congr fun b _ ↦ ?_)
    by_cases hb : b.part = part
    · subst hb
      have hspared : a.overwrites b = false := by
        simpa [Section.overwrites, hover.1] using hover.2
      rw [hspared, Bool.not_false, Bool.and_true]
    · rw [beq_false_of_ne hb, Bool.false_and]

end SuiteMigration.Gherkin
