import Mathlib.Algebra.GroupWithZero.Nat
import Mathlib.Tactic.SplitIfs
import SuiteMigration.Proofs.Gherkin.Sections

/-!
Which steps of a text its feature keeps. After each line the feature stores the steps of the
sections that are not overwritten so far, in the order of their lines. So it stores every step of
the text once exactly if no heading overwrites a section that has steps.
-/

set_option autoImplicit false
set_option relaxedAutoImplicit false

namespace SuiteMigration.Gherkin

open SuiteMigration.Text

/-! ### What a feature stores -/

/-- What a step line says. -/
def Step.line (s : Step) : String × String :=
  (s.keyword, s.text)

def Feature.backgroundLines (f : Feature) : List (List (String × String)) :=
  f.background.toList.map (List.map Step.line)

def Feature.scenarioLines (f : Feature) : List (List (String × String)) :=
  f.scenarios.map fun s ↦ s.steps.map Step.line

/-- A feature with the steps of the sections that survive. -/
structure Stores (ss : List Section) (f : Feature) : Prop where
  background : f.backgroundLines = kept ss .background
  scenarios : f.scenarioLines = kept ss .scenario
  /-- Steps elsewhere are refused. -/
  others : ∀ a ∈ ss, a.part ≠ .background → a.part ≠ .scenario → a.steps = []

theorem map_modifyLast {α β : Type} {view : α → β} {change : α → α}
    (h : ∀ a, view (change a) = view a) (l : List α) :
    (modifyLast change l).map view = l.map view := by
  fun_induction modifyLast change l with
  | case1 => rfl
  | case2 a => rw [List.map_singleton, List.map_singleton, h]
  | case3 a rest _ ih => rw [List.map_cons, List.map_cons, ih]

theorem modifyLast_concat {α : Type} (change : α → α) (l : List α) (a : α) :
    modifyLast change (l ++ [a]) = l ++ [change a] := by
  induction l with
  | nil => rfl
  | cons b rest ih =>
    rw [List.cons_append, modifyLast, ih, List.cons_append]
    exact List.append_ne_nil_of_right_ne_nil rest (List.cons_ne_nil a [])

theorem modifyLastScenario_lines {change : Scenario → Scenario}
    (h : ∀ s, (change s).steps.map Step.line = s.steps.map Step.line) (f : Feature) :
    (f.modifyLastScenario change).backgroundLines = f.backgroundLines ∧
      (f.modifyLastScenario change).scenarioLines = f.scenarioLines :=
  ⟨rfl, map_modifyLast h f.scenarios⟩

theorem modifyLastStep_lines {change : Step → Step} (h : ∀ s, (change s).line = s.line)
    (f : Feature) (part : Part) :
    (f.modifyLastStep part change).backgroundLines = f.backgroundLines ∧
      (f.modifyLastStep part change).scenarioLines = f.scenarioLines := by
  cases part with
  | background =>
    refine ⟨?_, rfl⟩
    rw [Feature.modifyLastStep, Feature.backgroundLines, Feature.backgroundLines]
    cases f.background with
    | none => rfl
    | some steps => exact congrArg (fun step ↦ [step]) (map_modifyLast h steps)
  | scenario => exact modifyLastScenario_lines (fun s ↦ map_modifyLast h s.steps) f
  | feature => exact ⟨rfl, rfl⟩
  | examples => exact ⟨rfl, rfl⟩
  | rule => exact ⟨rfl, rfl⟩

theorem line_addTableRow (row : List String) (s : Step) : (s.addTableRow row).line = s.line := by
  unfold Step.addTableRow
  split <;> rfl

theorem addTableRow_lines (f : Feature) (part : Part) (row : List String) :
    (f.addTableRow part row).backgroundLines = f.backgroundLines ∧
      (f.addTableRow part row).scenarioLines = f.scenarioLines := by
  unfold Feature.addTableRow
  split
  · refine modifyLastScenario_lines ?_ f
    exact fun _ ↦ rfl
  · exact modifyLastStep_lines (line_addTableRow row) f part

theorem addText_lines (f : Feature) (part : Part) (line : String) :
    (f.addText part line).backgroundLines = f.backgroundLines ∧
      (f.addText part line).scenarioLines = f.scenarioLines := by
  unfold Feature.addText
  split <;> exact ⟨rfl, rfl⟩

namespace Stores

variable {ss : List Section} {f g : Feature}

theorem congr (h : Stores ss f)
    (hg : g.backgroundLines = f.backgroundLines ∧ g.scenarioLines = f.scenarioLines) :
    Stores ss g :=
  ⟨hg.1.trans h.background, hg.2.trans h.scenarios, h.others⟩

/-- A heading opens a section without steps. -/
theorem others_concat
    (h : ∀ a ∈ ss, a.part ≠ .background → a.part ≠ .scenario → a.steps = []) (part : Part) :
    ∀ a ∈ ss ++ [⟨part, []⟩], a.part ≠ .background → a.part ≠ .scenario → a.steps = [] := by
  intro a ha
  obtain ha | ha := List.mem_append.mp ha
  · exact h a ha
  · rw [List.mem_singleton.mp ha]
    exact fun _ _ ↦ rfl

theorem openFeature (h : ∀ a ∈ ss, a.part ≠ .background → a.part ≠ .scenario → a.steps = [])
    (name : String) (tags : List String) :
    Stores (ss ++ [⟨.feature, []⟩]) { name, tags } where
  background := by rw [kept_concat]; rfl
  scenarios := by rw [kept_concat]; rfl
  others := others_concat h .feature

theorem openBackground (h : Stores ss f) :
    Stores (ss ++ [⟨.background, []⟩]) { f with background := some [] } where
  background := by rw [kept_concat]; rfl
  scenarios := by
    rw [kept_concat, ← h.scenarios, if_neg (by decide), if_neg (by decide), List.append_nil]
    rfl
  others := others_concat h.others .background

theorem openScenario (h : Stores ss f) {s : Scenario} (hs : s.steps = []) :
    Stores (ss ++ [⟨.scenario, []⟩]) { f with scenarios := f.scenarios ++ [s] } where
  background := by
    rw [kept_concat, ← h.background, if_neg (by decide), if_neg (by decide), List.append_nil]
    rfl
  scenarios := by
    rw [kept_concat, ← h.scenarios, if_neg (by decide), if_pos rfl, Feature.scenarioLines,
      List.map_append, List.map_singleton, hs]
    rfl
  others := others_concat h.others .scenario

/-- Rules and examples have no steps, and they overwrite none. -/
theorem openOther (h : Stores ss f) {part : Part} (hpart : part = .rule ∨ part = .examples) :
    Stores (ss ++ [⟨part, []⟩]) f where
  background := by
    rw [kept_concat, ← h.background]
    obtain rfl | rfl := hpart <;> simp
  scenarios := by
    rw [kept_concat, ← h.scenarios]
    obtain rfl | rfl := hpart <;> simp
  others := others_concat h.others part

/-- A step goes to the section that is open. -/
theorem addStep {current : Section} (h : Stores (ss ++ [current]) f) {step : Step}
    (hadd : f.addStep? current.part step = some g) :
    Stores (ss ++ [{ current with steps := current.steps ++ [step.line] }]) g := by
  obtain ⟨part, steps⟩ := current
  obtain ⟨hbackground, hscenarios, hothers⟩ := h
  rw [kept_concat] at hbackground hscenarios
  have hothers' : part = .background ∨ part = .scenario →
      ∀ a ∈ ss ++ [⟨part, steps ++ [step.line]⟩],
        a.part ≠ .background → a.part ≠ .scenario → a.steps = [] := by
    intro hpart a ha
    obtain ha | ha := List.mem_append.mp ha
    · exact hothers a (List.mem_append_left _ ha)
    · rw [List.mem_singleton.mp ha]
      exact fun h₁ h₂ ↦ absurd hpart (not_or.mpr ⟨h₁, h₂⟩)
  cases part with
  | background =>
    obtain rfl := Option.some.inj hadd
    refine ⟨?_, ?_, hothers' (.inl rfl)⟩
    · -- The open section is the only background that survives.
      obtain ⟨stored, hstored, hsteps⟩ := List.map_eq_singleton_iff.mp hbackground
      rw [kept_concat, Feature.backgroundLines, Option.toList_map, hstored]
      simp [hsteps]
    · rw [kept_concat]
      exact hscenarios
  | scenario =>
    obtain rfl := Option.some.inj hadd
    refine ⟨?_, ?_, hothers' (.inr rfl)⟩
    · rw [kept_concat]
      exact hbackground
    · -- The open section is that of the last scenario.
      obtain ⟨earlier, last, hsplit, hearlier, hlast⟩ := List.map_eq_append_iff.mp hscenarios
      obtain ⟨s, rfl, hsteps⟩ := List.map_eq_singleton_iff.mp hlast
      rw [kept_concat, Feature.scenarioLines, Feature.modifyLastScenario, hsplit,
        modifyLast_concat, List.map_append, hearlier]
      simp [hsteps]
  | feature => cases hadd
  | examples => cases hadd
  | rule => cases hadd

end Stores

/-! ### Reading -/

/-- What has been read, with the sections of the lines so far: `current` is the one that is open. -/
inductive Reads (done : List Section) (current : Section) : Option Feature → Part → Prop
  | before (h : ∀ a ∈ done ++ [current], a.steps = []) : Reads done current none .feature
  | inside {f : Feature} (h : Stores (done ++ [current]) f) :
      Reads done current (some f) current.part

theorem Reads.stores {done : List Section} {current : Section} {f : Feature} {part : Part}
    (h : Reads done current (some f) part) :
    Stores (done ++ [current]) f ∧ part = current.part := by
  cases h with
  | inside h => exact ⟨h, rfl⟩

theorem Reads.others {done : List Section} {current : Section} {feature : Option Feature}
    {part : Part} (h : Reads done current feature part) :
    ∀ a ∈ done ++ [current], a.part ≠ .background → a.part ≠ .scenario → a.steps = [] := by
  cases h with
  | before h => exact fun a ha _ _ ↦ h a ha
  | inside h => exact h.others

/-- Above the first heading of a feature there are no steps, whatever other headings say. -/
theorem Reads.openBefore {done : List Section} {current : Section} {part : Part}
    (h : Reads done current none part) (next : Part) :
    Reads (done ++ [current]) ⟨next, []⟩ none part := by
  cases h with
  | before h =>
    refine .before fun a ha ↦ ?_
    obtain ha | ha := List.mem_append.mp ha
    · exact h a ha
    · rw [List.mem_singleton.mp ha]

/-- What has been read with one more line. -/
def ReadsLine (done : List Section) (current : Section) (line : String) (t : ParserState) : Prop :=
  match openedPart? line with
  | some part => Reads (done ++ [current]) ⟨part, []⟩ t.feature t.part
  | none => Reads done (current.withLine line) t.feature t.part

theorem withLine_eq_self {line : String} (h : splitStep? line = none) (a : Section) :
    a.withLine line = a := by
  rw [Section.withLine, h, Option.toList_none, List.append_nil]

/-- A line that is neither a heading nor a step changes nothing that counts. -/
theorem Reads.readsLine {done : List Section} {current : Section} {line : String} {t : ParserState}
    (h : Reads done current t.feature t.part) (hpart : openedPart? line = none)
    (hstep : splitStep? line = none) : ReadsLine done current line t := by
  rw [ReadsLine, hpart, withLine_eq_self hstep]
  exact h

/-- A heading opens its section. -/
theorem Stores.readHeading {ss : List Section} {f : Feature} (h : Stores ss f) {s t : ParserState}
    (hs : s.feature = some f) {number : Nat} {line : String}
    (hfeature : startsWith line "Feature:" = false) {part : Part}
    (hpart : openedPart? line = some part) (hread : s.readFeatureLine f number line = .ok t) :
    t.document = s.document ∧ Reads ss ⟨part, []⟩ t.feature t.part := by
  rw [openedPart?, if_neg (Bool.eq_false_iff.mp hfeature)] at hpart
  unfold ParserState.readFeatureLine at hread
  split at hread
  next hline =>
    rw [if_pos hline] at hpart
    obtain rfl := Option.some.inj hpart
    obtain rfl := Except.ok.inj hread
    exact ⟨rfl, .inside h.openBackground⟩
  next hline =>
  rw [if_neg hline] at hpart
  split at hread
  next hline =>
    rw [if_pos hline] at hpart
    obtain rfl := Option.some.inj hpart
    obtain rfl := Except.ok.inj hread
    refine ⟨rfl, ?_⟩
    rw [hs]
    exact .inside (h.openOther (.inl rfl))
  next hline =>
  rw [if_neg hline] at hpart
  split at hread
  next name isOutline hline =>
    rw [if_pos (Option.isSome_of_eq_some hline)] at hpart
    obtain rfl := Option.some.inj hpart
    obtain rfl := Except.ok.inj hread
    exact ⟨rfl, .inside (h.openScenario rfl)⟩
  next hline =>
  rw [if_neg (by simp [hline])] at hpart
  split at hread
  next hline =>
    rw [if_pos hline] at hpart
    obtain rfl := Option.some.inj hpart
    split at hread
    next => cases hread
    next =>
      obtain rfl := Except.ok.inj hread
      refine ⟨rfl, .inside ((h.openOther (.inr rfl)).congr (modifyLastScenario_lines ?_ f))⟩
      exact fun _ ↦ rfl
  next hline =>
    rw [if_neg hline] at hpart
    cases hpart

theorem not_heading_of_openedPart?_eq_none {line : String} (h : openedPart? line = none) :
    startsWith line "Background:" = false ∧ startsWith line "Rule:" = false ∧
      heading? line = none ∧
      (startsWith line "Examples:" || startsWith line "Scenarios:") = false := by
  unfold openedPart? at h
  split_ifs at h with _ hbackground hrule hheading hexamples
  exact ⟨Bool.eq_false_iff.mpr hbackground, Bool.eq_false_iff.mpr hrule,
    Option.not_isSome_iff_eq_none.mp hheading, Bool.eq_false_iff.mpr hexamples⟩

/-- A line below a heading adds its step, if it has one, to the open section. -/
theorem Stores.readBody {done : List Section} {current : Section} {f : Feature}
    (h : Stores (done ++ [current]) f) {s t : ParserState} (hcurrent : s.part = current.part)
    {number : Nat} {line : String} (hpart : openedPart? line = none)
    (hread : s.readFeatureLine f number line = .ok t) :
    t.document = s.document ∧ Reads done (current.withLine line) t.feature t.part := by
  obtain ⟨hbackground, hrule, hheading, hexamples⟩ := not_heading_of_openedPart?_eq_none hpart
  simp only [ParserState.readFeatureLine, hbackground, hrule, hheading, hexamples, hcurrent,
    Bool.false_eq_true, if_false] at hread
  split at hread
  next hline =>
    obtain ⟨-, hstep, -⟩ := unread_of_mark (by decide : "|" ∈ markStarts) hline
    obtain rfl := Except.ok.inj hread
    rw [withLine_eq_self hstep]
    exact ⟨rfl, .inside (h.congr (addTableRow_lines f _ _))⟩
  next =>
  split at hread
  next keyword text hstep =>
    split at hread
    next g hadd =>
      obtain rfl := Except.ok.inj hread
      rw [Section.withLine, hstep]
      exact ⟨rfl, .inside (h.addStep hadd)⟩
    next => cases hread
  next hstep =>
    obtain rfl := Except.ok.inj hread
    rw [withLine_eq_self hstep]
    exact ⟨rfl, .inside (h.congr (addText_lines f _ _))⟩

theorem Stores.readFeatureLine {done : List Section} {current : Section} {f : Feature}
    (h : Stores (done ++ [current]) f) {s t : ParserState} (hs : s.feature = some f)
    (hcurrent : s.part = current.part) {number : Nat} {line : String}
    (hfeature : startsWith line "Feature:" = false)
    (hread : s.readFeatureLine f number line = .ok t) :
    t.document = s.document ∧ ReadsLine done current line t := by
  unfold ReadsLine
  split
  next part hpart => exact h.readHeading hs hfeature hpart hread
  next hpart => exact h.readBody hcurrent hpart hread

theorem Reads.readPlainLine {done : List Section} {current : Section} {s t : ParserState}
    (h : Reads done current s.feature s.part) {number : Nat} {line : String}
    (hdocument : documentDelimiter? line = none) (hread : s.readPlainLine number line = .ok t) :
    t.document = s.document ∧ ReadsLine done current line t := by
  unfold ParserState.readPlainLine at hread
  split at hread
  next hline =>
    obtain rfl := Except.ok.inj hread
    refine ⟨rfl, ?_⟩
    obtain hline | hline := Bool.or_eq_true_iff.mp hline
    · obtain rfl := String.isEmpty_iff.mp hline
      exact h.readsLine (by decide) (by decide)
    · obtain ⟨hpart, hstep, -⟩ := unread_of_mark (by decide : "#" ∈ markStarts) hline
      exact h.readsLine hpart hstep
  next =>
  rw [hdocument] at hread
  dsimp only at hread
  split at hread
  next hline =>
    obtain rfl := Except.ok.inj hread
    obtain ⟨hpart, hstep, -⟩ := unread_of_mark (by decide : "@" ∈ markStarts) hline
    exact ⟨rfl, Reads.readsLine h hpart hstep⟩
  next =>
  split at hread
  next name hline =>
    obtain rfl := Except.ok.inj hread
    refine ⟨rfl, ?_⟩
    rw [ReadsLine, openedPart?, ← isSome_afterStart?, hline, if_pos Option.isSome_some]
    exact .inside (Stores.openFeature h.others _ _)
  next hline =>
  split at hread
  next f hs =>
    rw [hs] at h
    obtain ⟨hstores, hpart⟩ := h.stores
    refine hstores.readFeatureLine hs hpart ?_ hread
    rw [← isSome_afterStart?, hline, Option.isSome_none]
  next hs =>
    split at hread
    next => cases hread
    next hstep =>
      obtain rfl := Except.ok.inj hread
      refine ⟨rfl, ?_⟩
      cases hpart : openedPart? line with
      | some part =>
        rw [ReadsLine, hpart, hs]
        rw [hs] at h
        exact h.openBefore part
      | none => exact h.readsLine hpart (Option.not_isSome_iff_eq_none.mp hstep)

/-- The delimiter of the attached text that is open. -/
def ParserState.delimiter? (s : ParserState) : Option String :=
  s.document.map OpenDocument.delimiter

theorem readDocumentLine_delimiter? (s : ParserState) (d : OpenDocument) (line : String) :
    (s.readDocumentLine d line).delimiter? =
      if line == d.delimiter then none else some d.delimiter := by
  unfold ParserState.readDocumentLine ParserState.delimiter?
  split <;> rfl

theorem Reads.readDocumentLine {done : List Section} {current : Section} {s : ParserState}
    (h : Reads done current s.feature s.part) (d : OpenDocument) (line : String) :
    Reads done current (s.readDocumentLine d line).feature (s.readDocumentLine d line).part := by
  unfold ParserState.readDocumentLine
  split
  · cases hs : s.feature with
    | none => rwa [hs] at h
    | some f =>
      rw [hs] at h
      obtain ⟨hstores, hpart⟩ := h.stores
      dsimp only
      rw [hpart]
      refine .inside (hstores.congr (modifyLastStep_lines ?_ f _))
      exact fun _ ↦ rfl
  · exact h

/-- A line that attaches a text is no comment. -/
theorem readPlainLine_of_documentDelimiter? {line delimiter : String}
    (h : documentDelimiter? line = some delimiter) (s : ParserState) (number : Nat) :
    s.readPlainLine number line = .ok { s with document := some ⟨number, delimiter, []⟩ } := by
  have hread : ¬ (line.isEmpty || startsWith line "#") = true := by
    intro hline
    obtain hline | hline := Bool.or_eq_true_iff.mp hline
    · have hnone : documentDelimiter? "" = none := by decide
      rw [String.isEmpty_iff.mp hline, hnone] at h
      cases h
    · obtain ⟨-, -, hdocument⟩ := unread_of_mark (by decide : "#" ∈ markStarts) hline
      rw [hdocument] at h
      cases h
  rw [ParserState.readPlainLine, if_neg hread, h]

/-- One line on, the sections of the lines read and of those that follow are the same. -/
theorem Reads.readLine {done : List Section} {current : Section} {s t : ParserState}
    (h : Reads done current s.feature s.part) {number : Nat} {raw : String}
    (hread : s.readLine number raw = .ok t) :
    ∃ done' current', Reads done' current' t.feature t.part ∧
      ∀ rest, done' ++ sectionsFrom current' (linesOutside t.delimiter? rest) =
        done ++ sectionsFrom current (linesOutside s.delimiter? (trim raw :: rest)) := by
  rw [ParserState.readLine] at hread
  generalize trim raw = line at hread ⊢
  cases hdocument : s.document with
  | some d =>
    rw [hdocument] at hread
    obtain rfl := Except.ok.inj hread
    refine ⟨done, current, h.readDocumentLine d line, fun rest ↦ ?_⟩
    rw [readDocumentLine_delimiter?, ParserState.delimiter?, hdocument, Option.map_some,
      linesOutside]
  | none =>
    rw [hdocument] at hread
    have hs : s.delimiter? = none := by rw [ParserState.delimiter?, hdocument, Option.map_none]
    rw [hs]
    cases hopens : documentDelimiter? line with
    | some delimiter =>
      dsimp only at hread
      rw [readPlainLine_of_documentDelimiter? hopens] at hread
      obtain rfl := Except.ok.inj hread
      refine ⟨done, current, h, fun rest ↦ ?_⟩
      rw [linesOutside, hopens]
      rfl
    | none =>
      obtain ⟨ht, hreads⟩ := h.readPlainLine hopens hread
      have hlines (rest : List String) :
          linesOutside none (line :: rest) = line :: linesOutside t.delimiter? rest := by
        rw [linesOutside, hopens, ParserState.delimiter?, ht, hdocument, Option.map_none]
      unfold ReadsLine at hreads
      split at hreads
      next part hpart =>
        refine ⟨_, _, hreads, fun rest ↦ ?_⟩
        rw [hlines, sectionsFrom, hpart, List.append_assoc, List.singleton_append]
      next hpart =>
        refine ⟨_, _, hreads, fun rest ↦ ?_⟩
        rw [hlines, sectionsFrom, hpart]

theorem Reads.after {number : Nat} {ls : List String} {s t : ParserState} {done : List Section}
    {current : Section} (h : Reads done current s.feature s.part)
    (hread : readLines number s ls = .ok t) :
    ∃ done' current', Reads done' current' t.feature t.part ∧
      done' ++ [current'] =
        done ++ sectionsFrom current (linesOutside s.delimiter? (ls.map trim)) := by
  induction ls generalizing number s done current with
  | nil =>
    obtain rfl := Except.ok.inj hread
    refine ⟨done, current, h, ?_⟩
    cases s.delimiter? <;> rfl
  | cons raw rest ih =>
    cases hline : s.readLine number raw with
    | error e =>
      rw [readLines, hline] at hread
      cases hread
    | ok u =>
      rw [readLines, hline] at hread
      obtain ⟨done₁, current₁, hu, hsections⟩ := h.readLine hline
      rw [List.map_cons, ← hsections]
      exact ih hu hread

/-- A feature stores the steps of the sections of its text that survive. -/
theorem stores_sections {text : String} {f : Feature} (h : parse text = .ok f) :
    Stores (sections text) f := by
  unfold parse at h
  cases hread : readLines 1 {} (lines text) with
  | error e =>
    rw [hread] at h
    cases h
  | ok s =>
    rw [hread] at h
    have hstart : Reads [] ⟨.feature, []⟩ none .feature := .before fun a ha ↦ by
      rw [List.mem_singleton.mp ha]
    obtain ⟨done, current, hreads, hsections⟩ := Reads.after (s := {}) hstart hread
    obtain ⟨feature, part, tags, document⟩ := s
    cases document with
    | some d => cases h
    | none =>
      cases feature with
      | none => cases h
      | some g =>
        obtain rfl := Except.ok.inj h
        have hstores := hreads.stores.1
        rwa [hsections, List.nil_append] at hstores

/-! ### Steps kept -/

/-- The steps of a feature, those of the background first. -/
def Feature.stepLines (f : Feature) : List (String × String) :=
  (f.background.getD [] ++ f.scenarios.flatMap Scenario.steps).map Step.line

/-- Sections of which no background stands below steps of a scenario. -/
def BackgroundsFirst (ss : List Section) : Prop :=
  ss.Pairwise fun above a ↦ a.part = .background → above.part = .scenario → above.steps = []

instance (ss : List Section) : Decidable (BackgroundsFirst ss) :=
  inferInstanceAs (Decidable (List.Pairwise _ ss))

section Split

variable {ss : List Section}

/-- The steps of the sections of a part. -/
def stepsOf (ss : List Section) (part : Part) : List (String × String) :=
  (ss.filter (·.part == part)).flatMap Section.steps

theorem stepsOf_cons (a : Section) (ss : List Section) (part : Part) :
    stepsOf (a :: ss) part = (if a.part = part then a.steps else []) ++ stepsOf ss part := by
  by_cases h : a.part = part <;> simp [stepsOf, h]

theorem flatten_kept (ss : List Section) (part : Part) :
    (kept ss part).flatten = stepsOf (surviving ss) part :=
  List.flatMap_def.symm

theorem flatMap_steps_perm
    (h : ∀ a ∈ ss, a.part ≠ .background → a.part ≠ .scenario → a.steps = []) :
    (ss.flatMap Section.steps).Perm (stepsOf ss .background ++ stepsOf ss .scenario) := by
  induction ss with
  | nil => exact .refl _
  | cons a rest ih =>
    have hrest := ih fun b hb ↦ h b (List.mem_cons_of_mem a hb)
    rw [List.flatMap_cons, stepsOf_cons, stepsOf_cons]
    by_cases hbackground : a.part = .background
    · simpa [hbackground] using hrest.append_left a.steps
    by_cases hscenario : a.part = .scenario
    · simp only [hscenario, if_pos, reduceCtorEq, if_false, List.nil_append]
      exact (hrest.append_left a.steps).trans (List.perm_append_comm_assoc ..)
    · simpa [hbackground, hscenario, h a List.mem_cons_self hbackground hscenario] using hrest

theorem flatMap_steps_eq
    (h : ∀ a ∈ ss, a.part ≠ .background → a.part ≠ .scenario → a.steps = [])
    (hfirst : BackgroundsFirst ss) :
    ss.flatMap Section.steps = stepsOf ss .background ++ stepsOf ss .scenario := by
  induction ss with
  | nil => rfl
  | cons a rest ih =>
    obtain ⟨ha, hfirst⟩ := List.pairwise_cons.mp hfirst
    have hrest := ih (fun b hb ↦ h b (List.mem_cons_of_mem a hb)) hfirst
    rw [List.flatMap_cons, stepsOf_cons, stepsOf_cons, hrest]
    by_cases hbackground : a.part = .background
    · simp [hbackground]
    by_cases hscenario : a.part = .scenario
    · -- Below steps of a scenario there is no background.
      obtain hsteps | hsteps := eq_or_ne a.steps []
      · simp [hscenario, hsteps]
      · have hnone : stepsOf rest .background = [] := by
          have hfilter : rest.filter (·.part == .background) = [] :=
            List.filter_eq_nil_iff.mpr fun b hb hpart ↦
              hsteps (ha b hb (beq_iff_eq.mp hpart) hscenario)
          rw [stepsOf, hfilter, List.flatMap_nil]
        simp [hscenario, hnone]
    · simp [hbackground, hscenario, h a List.mem_cons_self hbackground hscenario]

end Split

theorem stepLines_eq (f : Feature) :
    f.stepLines = f.backgroundLines.flatten ++ f.scenarioLines.flatten := by
  have hbackground : (f.background.getD []).map Step.line = f.backgroundLines.flatten := by
    rw [Feature.backgroundLines]
    cases f.background with
    | none => rfl
    | some steps => simp
  have hscenarios : (f.scenarios.flatMap Scenario.steps).map Step.line =
      f.scenarioLines.flatten := by
    rw [List.map_flatMap, Feature.scenarioLines, List.flatMap_def]
  rw [Feature.stepLines, List.map_append, hbackground, hscenarios]

theorem length_stepLines (f : Feature) :
    f.stepLines.length =
      (f.background.getD []).length + (f.scenarios.map fun s ↦ s.steps.length).sum := by
  rw [Feature.stepLines, List.length_map, List.length_append, List.length_flatMap]

/-- The background and the scenarios of a feature hold the steps of the sections of its text that no
later heading overwrites, in order, and nothing else. These are all steps of the text exactly if no
heading overwrites steps; with the background in front they are the step lines as they are read. -/
theorem parse_keeps_steps_iff {text : String} {f : Feature} (h : parse text = .ok f) :
    f.background.toList.map (List.map Step.line) = kept (sections text) .background ∧
      f.scenarios.map (fun s ↦ s.steps.map Step.line) = kept (sections text) .scenario ∧
      f.stepLines.Subperm (stepLines text) ∧
      (f.stepLines.Perm (stepLines text) ↔ StepsSpared (sections text)) ∧
      ((f.background.getD []).length + (f.scenarios.map fun s ↦ s.steps.length).sum =
          (stepLines text).length ↔ StepsSpared (sections text)) ∧
      (StepsSpared (sections text) → BackgroundsFirst (sections text) →
        f.stepLines = stepLines text) := by
  have hstores := stores_sections h
  have hsurviving := surviving_sublist (sections text)
  have hothers : ∀ a ∈ surviving (sections text),
      a.part ≠ .background → a.part ≠ .scenario → a.steps = [] := fun a ha ↦
    hstores.others a (hsurviving.subset ha)
  have hstepLines : f.stepLines =
      stepsOf (surviving (sections text)) .background ++
        stepsOf (surviving (sections text)) .scenario := by
    rw [stepLines_eq, hstores.background, hstores.scenarios, flatten_kept, flatten_kept]
  have hperm : f.stepLines.Perm ((surviving (sections text)).flatMap Section.steps) := by
    rw [hstepLines]
    exact (flatMap_steps_perm hothers).symm
  have hsublist : ((surviving (sections text)).flatMap Section.steps).Sublist (stepLines text) := by
    rw [← flatMap_steps_sections]
    exact hsurviving.flatMap Section.steps
  have hspared := flatMap_steps_surviving_eq_iff (sections text)
  rw [flatMap_steps_sections] at hspared
  have hlength : f.stepLines.length = (stepLines text).length ↔ StepsSpared (sections text) := by
    rw [← hspared, hperm.length_eq]
    exact ⟨hsublist.eq_of_length, congrArg List.length⟩
  refine ⟨hstores.background, hstores.scenarios, ⟨_, hperm.symm, hsublist⟩,
    ⟨fun heq ↦ hlength.mp heq.length_eq, fun heq ↦ ?_⟩, ?_, fun heq hfirst ↦ ?_⟩
  · rwa [hspared.mpr heq] at hperm
  · rwa [← length_stepLines]
  · rw [hstepLines, ← flatMap_steps_eq hothers (hfirst.sublist hsurviving), hspared.mpr heq]

/-- An attached text that looks like a step, and a rule. -/
theorem parse_keeps_steps_iff_attached :
    let text := "Feature:\nBackground:\nGiven a\n```\nWhen b\n```\nRule:\nExample:\n* c\n"
    let f : Feature :=
      { name := ""
        background := some [⟨"Given", "a", some (.document "When b")⟩]
        scenarios := [{ name := "", steps := [⟨"*", "c", none⟩] }] }
    parse text = .ok f ∧ StepsSpared (sections text) ∧ BackgroundsFirst (sections text) ∧
      stepLines text = [("Given", "a"), ("*", "c")] ∧ f.stepLines = stepLines text := by
  intro text f
  have hparse : parse text = .ok f := by decide +kernel
  have hsections : sections text =
      [⟨.feature, []⟩, ⟨.feature, []⟩, ⟨.background, [("Given", "a")]⟩, ⟨.rule, []⟩,
        ⟨.scenario, [("*", "c")]⟩] := by decide +kernel
  have hspared : StepsSpared (sections text) := by
    rw [hsections]
    decide
  have hfirst : BackgroundsFirst (sections text) := by
    rw [hsections]
    decide
  obtain ⟨-, -, -, -, -, heq⟩ := parse_keeps_steps_iff hparse
  refine ⟨hparse, hspared, hfirst, ?_, heq hspared hfirst⟩
  rw [← flatMap_steps_sections, hsections]
  rfl

/-- The background of a rule is read as the only one. -/
theorem second_background_drops_steps :
    let text := "Feature:\nBackground:\nGiven a\nRule:\nBackground:\nGiven b\n"
    let f : Feature := { name := "", background := some [⟨"Given", "b", none⟩] }
    parse text = .ok f ∧ stepLines text = [("Given", "a"), ("Given", "b")] ∧
      ("Given", "a") ∉ f.stepLines ∧ f.stepLines.length ≠ (stepLines text).length := by
  intro text f
  have hlines : stepLines text = [("Given", "a"), ("Given", "b")] := by decide +kernel
  refine ⟨by decide +kernel, hlines, by decide, ?_⟩
  rw [hlines]
  decide

end SuiteMigration.Gherkin
