import SuiteMigration.Proofs.Action.PlainActions
import SuiteMigration.Proofs.Java.MethodNames
import SuiteMigration.Proofs.Keyword.UniqueNames
import SuiteMigration.Proofs.Robot.Rendering
import SuiteMigration.Resource.Steps

/-!
The keywords of a step resource are tidy. A name is the title of a pattern, from which the symbols
of regular expressions are taken, or the title of a method name, and perhaps a number; so it is one
line and has no star. The rows below it are made of cells and comments, which have no line feed.
There is one keyword for each step, in order, and their names differ up to case.
-/

set_option autoImplicit false
set_option relaxedAutoImplicit false

namespace SuiteMigration

open SuiteMigration.Text SuiteMigration.Chars SuiteMigration.Java SuiteMigration.Robot
open SuiteMigration.Keyword

/-! ### Names of steps -/

/-- A name that is one line and no header. -/
def PlainName (name : String) : Prop :=
  OneLine name.toList ∧ '*' ∉ name.toList

theorem plainName_numbered {name : String} (h : PlainName name) (n : Nat) :
    PlainName (numbered name n) := by
  have hspace : OneLine [' '] := by decide
  have hdigits : '*' ∉ (toString n).toList := by
    rw [toList_toString]
    intro hstar
    cases Nat.isDigit_of_mem_toDigits (by decide) (by decide) hstar
  rw [PlainName, toList_numbered]
  refine ⟨h.1.append (hspace.append (oneLine_toString n)), ?_⟩
  rw [List.mem_append, List.mem_cons, not_or, not_or]
  exact ⟨h.2, by decide, hdigits⟩

/-- A title is plain if its text has no star. -/
theorem plainName_titleChars {cs : List Char} (h : '*' ∉ cs) :
    PlainName (String.ofList (titleChars cs)) := by
  rw [PlainName, String.toList_ofList]
  refine ⟨oneLine_titleChars cs, fun hstar ↦ ?_⟩
  obtain heq | ⟨hstar, _⟩ := mem_titleChars_cases hstar (by decide) (by decide)
  · cases heq
  · exact h hstar

theorem plainName_ofPattern (pattern : String) : PlainName (ofPattern pattern).name := by
  refine plainName_titleChars fun hstar ↦ ?_
  obtain ⟨c, _, hc⟩ := List.mem_map.mp hstar
  split at hc
  · cases hc
  next hsymbol =>
    rw [hc] at hsymbol
    exact hsymbol rfl

theorem plainName_ofIdentifier {name : String} (h : ∀ c ∈ name.toList, isNameChar c = true) :
    PlainName (ofIdentifier name) := by
  refine plainName_titleChars fun hstar ↦ ?_
  rw [String.toList_intercalate] at hstar
  obtain hstar | ⟨part, hpart, hstar⟩ := mem_join hstar
  · revert hstar
    decide
  · obtain ⟨word, hword, rfl⟩ := List.mem_map.mp hpart
    obtain ⟨cs, hcs, rfl⟩ := List.mem_map.mp hword
    rw [String.toList_ofList] at hstar
    have hname : isNameChar '*' = true :=
      mem_of_mem_identifierWordsFrom (List.forall_mem_nil _) (fun d hd _ ↦ h d hd) hcs hstar
    cases hname

/-! ### Keywords of steps -/

/-- What a step takes from its method: a name of the characters of simple names, parameters without
line feeds and plain actions. -/
structure StepDefinition.Plain (s : StepDefinition) : Prop where
  methodName : ∀ c ∈ s.methodName.toList, isNameChar c = true
  params : ∀ param ∈ s.params, Unbroken param.toList
  actions : ∀ action ∈ s.actions, action.Plain

theorem plain_of_mem_stepsOfOutline {source : String} {o : Outline} (ho : outline source = .ok o)
    {s : StepDefinition} (hs : s ∈ stepsOfOutline o) : s.Plain := by
  obtain ⟨m, hm, hs⟩ := List.mem_flatMap.mp hs
  obtain ⟨a, _, hs⟩ := List.mem_filterMap.mp hs
  obtain ⟨kind, _, hs⟩ := Option.bind_eq_some_iff.mp hs
  obtain ⟨pattern, _, hs⟩ := Option.bind_eq_some_iff.mp hs
  obtain ⟨_, _, _, _, hmethod⟩ := exists_methodOf?_of_outline ho hm
  obtain ⟨hname, params, hparams⟩ := isNameChar_of_methodOf? hmethod
  rw [← Option.some.inj hs]
  refine ⟨hname, ?_, plain_extractActions _ _⟩
  dsimp only
  rw [hparams]
  exact unbroken_parameterNames params

theorem StepDefinition.Plain.plainName {s : StepDefinition} (h : s.Plain) :
    PlainName s.keywordName := by
  unfold StepDefinition.keywordName
  dsimp only
  split
  · exact plainName_ofIdentifier h.methodName
  · exact plainName_ofPattern s.pattern

theorem StepDefinition.Plain.unbroken_arguments {s : StepDefinition} (h : s.Plain) :
    ∀ arg ∈ s.arguments, Unbroken arg.toList := by
  unfold StepDefinition.arguments
  split
  · refine List.forall_mem_map.mpr fun i _ ↦ unbroken_scalar.mpr ?_
    have hstart : Unbroken "arg".toList := by decide
    exact hstart.append (oneLine_toString (i + 1)).unbroken
  · exact List.forall_mem_map.mpr fun param hparam ↦ unbroken_scalar.mpr (h.params param hparam)

theorem unbroken_reviewRemark {subject : String} (h : Unbroken subject.toList) :
    Unbroken (reviewRemark subject).toList := by
  have hstart : Unbroken "# REVIEW: verify mapped actions for '".toList := by decide
  have hend : Unbroken "'".toList := by decide
  exact (hstart.append h).append hend

theorem StepDefinition.Plain.unbroken_rows {s : StepDefinition} (h : s.Plain) (ctx : Context) :
    ∀ line ∈ (stepKeyword s ctx).lines.tail, Unbroken line.toList := by
  refine Block.unbroken_tail h.unbroken_arguments ?_ (List.forall_mem_nil _) ?_
  · intro text htext
    have hkind : Unbroken s.kind.label.toList := by cases s.kind <;> decide
    have hcolon : Unbroken ": ".toList := by decide
    rw [← Option.some.inj htext]
    exact (hkind.append hcolon).append (unbroken_escapeCell _)
  · refine List.forall_mem_append.mpr ⟨List.forall_mem_append.mpr ⟨?_, ?_⟩, ?_⟩
    · split
      · refine List.forall_mem_singleton.mpr (unbroken_reviewRemark ?_)
        rw [Text.collapse, String.toList_ofList]
        exact unbroken_collapse _
      · exact List.forall_mem_nil _
    · split
      · exact List.forall_mem_nil _
      · exact unbroken_rowsOfPattern s.pattern h.unbroken_arguments
    · intro line hline
      obtain ⟨action, haction, hline⟩ := List.mem_flatMap.mp hline
      exact (h.actions action haction).unbroken_actionRows line hline

theorem plainName_withUniqueNames {blocks : List Block} (h : ∀ b ∈ blocks, PlainName b.name) :
    ∀ b ∈ withUniqueNames blocks, PlainName b.name := by
  intro b hb
  refine forall_mem_uniqueNamesFrom (p := PlainName) (fun _ n hname ↦ plainName_numbered hname n)
    (List.forall_mem_map.mpr h) [] b.name ?_
  rw [← map_name_withUniqueNames]
  exact List.mem_map_of_mem hb

theorem unbroken_withUniqueNames {blocks : List Block}
    (h : ∀ b ∈ blocks, ∀ line ∈ b.lines.tail, Unbroken line.toList) :
    ∀ b ∈ withUniqueNames blocks, ∀ line ∈ b.lines.tail, Unbroken line.toList := by
  intro b hb
  have hmem := List.mem_map_of_mem (f := fun b : Block ↦ b.lines.tail) hb
  rw [map_tail_withUniqueNames] at hmem
  obtain ⟨other, hother, htail⟩ := List.mem_map.mp hmem
  exact htail ▸ h other hother

theorem withUniqueNames_ne_nil {blocks : List Block} (h : blocks ≠ []) :
    withUniqueNames blocks ≠ [] := by
  intro hnil
  have hmap := map_tail_withUniqueNames blocks
  rw [hnil, List.map_nil] at hmap
  exact h (List.map_eq_nil_iff.mp hmap.symm)

theorem name_stepKeyword (s : StepDefinition) (ctx : Context) :
    (stepKeyword s ctx).name = s.keywordName := by
  rw [stepKeyword]

/-- The keywords of a step resource are tidy, and there is one. -/
theorem tidy_stepResource {source : String} {ctx : Context} {g : Generated}
    (h : stepResource source ctx = .ok (some g)) :
    (∀ b ∈ g.file.keywords, b.Tidy) ∧ g.file.keywords ≠ [] := by
  obtain ⟨o, ho, h⟩ := exists_of_bind_eq_ok h
  dsimp only at h
  split at h
  · cases h
  next hsteps =>
    rw [← Option.some.inj (Except.ok.inj h)]
    dsimp only
    have hplain (s : StepDefinition) (hs : s ∈ stepsOfOutline o) : s.Plain :=
      plain_of_mem_stepsOfOutline ho hs
    have hnames := plainName_withUniqueNames (List.forall_mem_map.mpr fun s hs ↦
      name_stepKeyword s ctx ▸ (hplain s hs).plainName)
    have hrows := unbroken_withUniqueNames (List.forall_mem_map.mpr fun s hs ↦
      (hplain s hs).unbroken_rows ctx)
    refine ⟨fun b hb ↦ ⟨(hnames b hb).1, (hnames b hb).2, hrows b hb⟩, withUniqueNames_ne_nil ?_⟩
    simpa using hsteps

/-! ### Names that differ -/

/-- What can be read off a generated file tells that there is one. -/
theorem exists_generated {α : Type} {result : Except OutlineError (Option Generated)}
    {view : Generated → α} {a : α} (h : result.toOption.map (Option.map view) = some (some a)) :
    ∃ g, result = .ok (some g) ∧ view g = a := by
  cases result with
  | error e => cases h
  | ok found =>
    obtain ⟨g, rfl, hg⟩ := Option.map_eq_some_iff.mp (Option.some.inj h)
    exact ⟨g, rfl, hg⟩

/-- A step resource has one keyword for each step of its source, in order: the keyword of the step,
under a name that is given where the names of the keywords before it are in use. So the names differ
up to case. The search for a number, which starts from two, ends for all names that can be in
use. -/
theorem step_keywords_numbered {source : String} {ctx : Context} {g : Generated}
    (h : stepResource source ctx = .ok (some g)) :
    ∃ steps, extractSteps source = .ok steps ∧
      g.file.keywords.length = steps.length ∧
      (∀ (i : Nat) (s : StepDefinition) (b : Block),
        steps[i]? = some s → g.file.keywords[i]? = some b →
          b = { stepKeyword s ctx with name := b.name } ∧
          IsGiven ((g.file.keywords.take i).map fun b ↦ toLower b.name) (stepKeyword s ctx).name
            b.name) ∧
      NamesDiffer g.file.keywords ∧
      ∀ (used : List String) (name : String), ∃ n, Search used name 2 n := by
  obtain ⟨o, ho, h⟩ := exists_of_bind_eq_ok h
  dsimp only at h
  split at h
  · cases h
  rw [← Option.some.inj (Except.ok.inj h)]
  dsimp only
  refine ⟨stepsOfOutline o, by rw [extractSteps, ho]; rfl, ?_, ?_, namesDiffer_withUniqueNames _,
    fun used name ↦ exists_search used name 2⟩
  · rw [length_withUniqueNames, List.length_map]
  · intro i s b hs hb
    exact isGiven_withUniqueNames (by rw [List.getElem?_map, hs]; rfl) hb

/-- The second step repeats the name of the first, and the number that it gets is the name of the
third. -/
theorem step_keywords_numbered_twice :
    let ctx : Context := ⟨.enhanced, "SeleniumLibrary", "A.java"⟩
    let source := "class A\x7b@Given(\"go\")@When(\"Go\")@Then(\"go 2\")void m()\x7b\x7d\x7d"
    ∃ g, stepResource source ctx = .ok (some g) ∧
      g.file.keywords.map Block.name = ["Go", "Go 2", "Go 2 2"] ∧
      NamesDiffer g.file.keywords := by
  intro ctx source
  obtain ⟨g, hg, hnames⟩ : ∃ g, stepResource source ctx = .ok (some g) ∧
      g.file.keywords.map Block.name = ["Go", "Go 2", "Go 2 2"] :=
    exists_generated (by decide +kernel)
  obtain ⟨_, _, _, _, hdiffer, _⟩ := step_keywords_numbered hg
  exact ⟨g, hg, hnames, hdiffer⟩

end SuiteMigration
