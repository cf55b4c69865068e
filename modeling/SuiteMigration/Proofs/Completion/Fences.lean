import SuiteMigration.Completion.Assistant
import SuiteMigration.Proofs.Action.PlainActions
import SuiteMigration.Proofs.Robot.IssueCount
import SuiteMigration.Proofs.Robot.Rendering
import SuiteMigration.Proofs.Robot.TitleRow

/-!
Fences in accepted replies. A chat puts code between lines that start with three backticks. The
first line of a reply is dropped if it is such a fence, and then also three backticks at the very
end of the reply; every other line is kept. So an accepted file is free of fences exactly if the
reply has no other fence.
-/

set_option autoImplicit false
set_option relaxedAutoImplicit false

namespace SuiteMigration.Chars

open SuiteMigration.Text

theorem trim_withoutReturn (cs : List Char) : trim (withoutReturn cs) = trim cs := by
  unfold withoutReturn
  split
  next hreturn =>
    obtain ⟨front, rfl⟩ := List.getLast?_eq_some_iff.mp hreturn
    rw [List.dropLast_concat, trim_concat_of_blank (by decide)]
  next => rfl

/-! ### The last line of a text -/

/-- A text of whole lines: it is empty or ends in a line feed. -/
def IsWhole (cs : List Char) : Prop :=
  cs = [] ∨ ∃ front, cs = front ++ ['\n']

theorem lines_append_of_isWhole {front : List Char} (h : IsWhole front) (rest : List Char) :
    lines (front ++ rest) = lines front ++ lines rest := by
  obtain rfl | ⟨others, rfl⟩ := h
  · rfl
  · rw [List.append_assoc, List.singleton_append, lines_append_newline_append]

theorem exists_last_line (cs : List Char) :
    ∃ front last, cs = front ++ last ∧ IsWhole front ∧ '\n' ∉ last := by
  by_cases hfeed : '\n' ∈ cs.reverse
  · obtain ⟨after, before, hreverse, hafter⟩ := List.eq_append_cons_of_mem hfeed
    refine ⟨before.reverse ++ ['\n'], after.reverse, ?_, Or.inr ⟨_, rfl⟩, by simpa using hafter⟩
    rw [← List.reverse_reverse cs, hreverse]
    simp
  · exact ⟨[], cs, rfl, Or.inl rfl, by simpa using hfeed⟩

theorem lines_of_not_mem {cs : List Char} (hne : cs ≠ []) (h : '\n' ∉ cs) : lines cs = [cs] := by
  induction cs with
  | nil => exact absurd rfl hne
  | cons c rest ih =>
    rw [List.mem_cons, not_or] at h
    have hhead : rest.head? ≠ some '\n' := fun hhead ↦ h.2 (List.mem_of_mem_head? hhead)
    rw [lines_cons (Ne.symm h.1) fun _ ↦ hhead]
    cases rest with
    | nil => rfl
    | cons d more => rw [ih (List.cons_ne_nil _ _) h.2]

theorem isBlank_getLast_trimEnd {cs : List Char} {c : Char} (h : (trimEnd cs).getLast? = some c) :
    isBlank c = false := by
  have hhead := List.head?_dropWhile_not isBlank cs.reverse
  rw [trimEnd, dropEndWhile, List.getLast?_reverse] at h
  rw [h] at hhead
  simpa using hhead

theorem trimEnd_eq_self {cs : List Char} (h : ∀ c ∈ cs.getLast?, isBlank c = false) :
    trimEnd cs = cs := by
  obtain rfl | ⟨front, c, rfl⟩ := List.eq_nil_or_concat' cs
  · rfl
  · exact trimEnd_append_cons (h c (by simp)) front []

theorem withoutReturn_eq_self {cs : List Char} (h : ∀ c ∈ cs.getLast?, isBlank c = false) :
    withoutReturn cs = cs :=
  if_neg fun hreturn ↦ absurd (h _ hreturn) (by decide)

theorem ne_nil_of_getLast? {front last : List Char} (hfront : IsWhole front)
    (hne : front ++ last ≠ []) (h : ∀ c ∈ (front ++ last).getLast?, isBlank c = false) :
    last ≠ [] := by
  rintro rfl
  obtain rfl | ⟨others, rfl⟩ := hfront
  · exact hne rfl
  · exact absurd (h '\n' (by simp)) (by decide)

theorem lines_append_newline_of_getLast? {cs : List Char} (hne : cs ≠ [])
    (h : ∀ c ∈ cs.getLast?, isBlank c = false) : lines (cs ++ ['\n']) = lines cs := by
  obtain ⟨front, last, rfl, hfront, hlast⟩ := exists_last_line cs
  have hlastNe := ne_nil_of_getLast? hfront hne h
  have hblank : ∀ c ∈ last.getLast?, isBlank c = false := by
    rwa [List.getLast?_append_of_ne_nil _ hlastNe] at h
  rw [List.append_assoc, lines_append_of_isWhole hfront, lines_append_of_isWhole hfront,
    lines_append_newline_of_not_mem hlast, withoutReturn_eq_self hblank,
    lines_of_not_mem hlastNe hlast]
  rfl

theorem beforeEnd?_eq_some_iff {ending cs before : List Char} :
    beforeEnd? ending cs = some before ↔ cs = before ++ ending := by
  rw [beforeEnd?, Option.map_eq_some_iff]
  constructor
  · rintro ⟨rest, hrest, rfl⟩
    simpa using congrArg List.reverse (eq_append_of_afterStart? hrest)
  · rintro rfl
    exact ⟨before.reverse, by rw [List.reverse_append, afterStart?_append], List.reverse_reverse _⟩

/-- An ending that is part of a line is looked for in the last line only. -/
theorem beforeEnd?_append {front : List Char} (h : IsWhole front) {ending : List Char}
    (hending : '\n' ∉ ending) (last : List Char) :
    beforeEnd? ending (front ++ last) = (beforeEnd? ending last).map (front ++ ·) := by
  refine Option.ext fun before ↦ ?_
  rw [beforeEnd?_eq_some_iff, Option.map_eq_some_iff]
  constructor
  · intro heq
    obtain ⟨more, rfl, rfl⟩ | ⟨more, rfl, rfl⟩ := List.append_eq_append_iff.mp heq
    · exact ⟨more, beforeEnd?_eq_some_iff.mpr rfl, rfl⟩
    · -- the ending cannot reach over the line feed at the end of the front
      have hmore : more = [] := by
        refine List.eq_nil_iff_forall_not_mem.mpr fun c hc ↦ hending ?_
        obtain hempty | ⟨others, hothers⟩ := h
        · rw [(List.append_eq_nil_iff.mp hempty).2] at hc
          cases hc
        · have hlast := congrArg List.getLast? hothers
          rw [List.getLast?_append_of_ne_nil _ (List.ne_nil_of_mem hc), List.getLast?_concat]
            at hlast
          exact List.mem_append_left _ (List.mem_of_getLast? hlast)
      subst hmore
      exact ⟨[], beforeEnd?_eq_some_iff.mpr rfl, by simp⟩
  · rintro ⟨rest, hrest, rfl⟩
    rw [beforeEnd?_eq_some_iff.mp hrest, List.append_assoc]

end SuiteMigration.Chars

namespace SuiteMigration.Completion

open SuiteMigration.Text SuiteMigration.Chars

/-- Whether a line starts with three backticks, with which a chat opens and closes code. -/
def isFence (line : String) : Bool :=
  startsWith (trim line) "```"

/-- Whether three backticks end a line and the text before them is no fence. -/
def closesFence (line : String) : Bool :=
  (beforeEnd? "```" line).any fun before ↦ !isFence before

/-! ### Fences -/

/-- Three backticks. -/
def fence : List Char :=
  "```".toList

/-- A text that is a fence, if it is a line. -/
def StartsFence (cs : List Char) : Prop :=
  fence <+: Chars.trim cs

theorem isFence_iff {line : String} : isFence line = true ↔ StartsFence line.toList := by
  have htrim : (Text.trim line).toList = Chars.trim line.toList := String.toList_ofList
  rw [isFence, startsWith_iff, htrim]
  rfl

theorem startsFence_iff {cs : List Char} : StartsFence cs ↔
    ∃ lead more, (∀ c ∈ lead, isBlank c = true) ∧ cs = lead ++ (fence ++ more) := by
  constructor
  · rintro ⟨more, hmore⟩
    obtain ⟨lead, back, hlead, heq⟩ := exists_trim_eq cs
    exact ⟨lead, more ++ back, hlead, by rw [heq, ← hmore]; simp⟩
  · rintro ⟨lead, more, hlead, rfl⟩
    have hfence : Chars.trim (fence ++ more) = fence ++ Chars.trimEnd more :=
      trim_append_cons (by decide) "``".toList more
    rw [StartsFence, trim_append_of_blank hlead, hfence]
    exact List.prefix_append _ _

theorem StartsFence.append {cs : List Char} (h : StartsFence cs) (more : List Char) :
    StartsFence (cs ++ more) := by
  obtain ⟨lead, rest, hlead, rfl⟩ := startsFence_iff.mp h
  exact startsFence_iff.mpr ⟨lead, rest ++ more, hlead, by simp⟩

theorem not_startsFence_nil : ¬ StartsFence [] := by
  rw [StartsFence]
  decide

theorem startsFence_congr {cs ds : List Char} (h : Chars.trim cs = Chars.trim ds) :
    StartsFence cs ↔ StartsFence ds := by
  rw [StartsFence, StartsFence, h]

theorem startsFence_iff_of_head? {cs : List Char} (h : ∀ c ∈ cs.head?, isBlank c = false) :
    StartsFence cs ↔ fence <+: cs := by
  rw [startsFence_iff]
  constructor
  · rintro ⟨lead, more, hlead, rfl⟩
    cases lead with
    | nil => exact List.prefix_append _ _
    | cons c others =>
      exact absurd (hlead c List.mem_cons_self) (by rw [h c rfl]; decide)
  · rintro ⟨more, rfl⟩
    exact ⟨[], more, by simp, rfl⟩

/-- A text in which no line is a fence. -/
def Unfenced (cs : List Char) : Prop :=
  ∀ line ∈ Chars.lines cs, ¬ StartsFence line

theorem unfenced_append {front : List Char} (h : IsWhole front) {last : List Char}
    (hlast : '\n' ∉ last) : Unfenced (front ++ last) ↔ Unfenced front ∧ ¬ StartsFence last := by
  rw [Unfenced, lines_append_of_isWhole h, List.forall_mem_append]
  refine and_congr_right' ?_
  by_cases hne : last = []
  · subst hne
    simpa [Chars.lines] using not_startsFence_nil
  · rw [lines_of_not_mem hne hlast, List.forall_mem_singleton]

/-- White space at the end of a text is part of no fence. -/
theorem unfenced_append_blank {tail : List Char} (h : ∀ c ∈ tail, isBlank c = true)
    (cs : List Char) : Unfenced (cs ++ tail) ↔ Unfenced cs := by
  induction tail generalizing cs with
  | nil => rw [List.append_nil]
  | cons c rest ih =>
    obtain ⟨hblank, hrest⟩ := List.forall_mem_cons.mp h
    rw [List.append_cons, ih hrest]
    obtain ⟨front, last, rfl, hfront, hlast⟩ := exists_last_line cs
    rw [unfenced_append hfront hlast, List.append_assoc]
    by_cases hc : c = '\n'
    · subst hc
      rw [Unfenced, lines_append_of_isWhole hfront, List.forall_mem_append,
        lines_append_newline_of_not_mem hlast, Chars.lines, List.forall_mem_singleton,
        startsFence_congr (trim_withoutReturn last)]
      rfl
    · have hnew : '\n' ∉ last ++ [c] := by simpa [hlast] using Ne.symm hc
      rw [unfenced_append hfront hnew, startsFence_congr (trim_concat_of_blank hblank last)]

theorem unfenced_trimEnd (cs : List Char) : Unfenced (Chars.trimEnd cs) ↔ Unfenced cs := by
  obtain ⟨tail, hblank, heq⟩ := exists_eq_trimEnd_append cs
  conv_rhs => rw [heq, unfenced_append_blank hblank]

/-! ### Fences of a reply -/

/-- What is kept of the last line of a fenced reply. -/
def lastKept (last : List Char) : List Char :=
  (Chars.beforeEnd? fence last).getD last

theorem not_startsFence_lastKept (line : String) :
    ¬ StartsFence (lastKept line.toList) ↔ (isFence line = true → closesFence line = true) := by
  rw [lastKept, closesFence, Text.beforeEnd?, isFence_iff]
  change _ ↔ (_ → ((Chars.beforeEnd? fence line.toList).map String.ofList).any _ = true)
  cases hbefore : Chars.beforeEnd? fence line.toList with
  | none => simp
  | some before =>
    have hline := beforeEnd?_eq_some_iff.mp hbefore
    have hstart : StartsFence before → StartsFence line.toList := fun hstart ↦
      hline ▸ hstart.append fence
    have hkept : isFence (String.ofList before) = true ↔ StartsFence before := by
      rw [isFence_iff, String.toList_ofList]
    simp only [Option.getD_some, Option.map_some, Option.any_some, Bool.not_eq_true',
      ← Bool.not_eq_true, hkept]
    exact ⟨fun hnot _ ↦ hnot, fun himp hbad ↦ himp (hstart hbad) hbad⟩

theorem not_mem_lastKept {last : List Char} (h : '\n' ∉ last) : '\n' ∉ lastKept last := by
  rw [lastKept]
  cases hbefore : Chars.beforeEnd? fence last with
  | none => exact h
  | some before =>
    rw [beforeEnd?_eq_some_iff.mp hbefore, List.mem_append, not_or] at h
    exact h.1

/-- Whether every fence in a text opens it, or closes it behind an opening one. -/
def OnlyOuterFences (content : List String) : Prop :=
  ∀ before line after, content = before ++ line :: after → isFence line = true →
    before = [] ∨ (after = [] ∧ before.head?.any isFence = true ∧ closesFence line = true)

theorem onlyOuterFences_of_not {content : List String} (h : content.head?.any isFence = false) :
    OnlyOuterFences content ↔ ∀ line ∈ content, isFence line = false := by
  constructor
  · intro houter line hline
    obtain ⟨before, after, rfl⟩ := List.append_of_mem hline
    refine Bool.eq_false_iff.mpr fun hfence ↦ ?_
    obtain rfl | ⟨-, hopen, -⟩ := houter before line after rfl hfence
    · rw [List.nil_append, List.head?_cons, Option.any_some, hfence] at h
      cases h
    · obtain ⟨first, hfirst, hopens⟩ := (Option.any_eq_true _ _).mp hopen
      rw [List.head?_append, hfirst, Option.some_or, Option.any_some, hopens] at h
      cases h
  · rintro hnone before line after rfl hfence
    rw [hnone line (by simp)] at hfence
    cases hfence

theorem onlyOuterFences_cons {first : String} (h : isFence first = true) (front : List String)
    (last : String) : OnlyOuterFences (first :: (front ++ [last])) ↔
      (∀ line ∈ front, isFence line = false) ∧ (isFence last = true → closesFence last = true) := by
  constructor
  · intro houter
    refine ⟨fun line hline ↦ Bool.eq_false_iff.mpr fun hfence ↦ ?_, fun hfence ↦ ?_⟩
    · obtain ⟨before, after, rfl⟩ := List.append_of_mem hline
      obtain hbefore | ⟨hafter, -⟩ :=
        houter (first :: before) line (after ++ [last]) (by simp) hfence
      · cases hbefore
      · simp at hafter
    · obtain hbefore | ⟨-, -, hcloses⟩ := houter (first :: front) last [] rfl hfence
      · cases hbefore
      · exact hcloses
  · rintro ⟨hfront, hlast⟩ before line after heq hfence
    cases before with
    | nil => exact Or.inl rfl
    | cons head others =>
      obtain ⟨rfl, hrest⟩ := List.cons.inj heq
      refine Or.inr ?_
      cases after using List.reverseRecOn with
      | nil =>
        obtain ⟨-, hlines⟩ := List.append_inj' hrest rfl
        obtain rfl := List.singleton_inj.mp hlines
        exact ⟨rfl, (List.head?_cons ▸ Option.any_some).trans h, hlast hfence⟩
      | append_singleton more final =>
        have happend : front ++ [last] = others ++ line :: more ++ [final] := by simpa using hrest
        obtain ⟨rfl, -⟩ := List.append_inj' happend rfl
        rw [hfront line (by simp)] at hfence
        cases hfence

/-! ### Accepted replies -/

theorem sectionName?_trim (line : String) :
    Robot.sectionName? (Text.trim line) = Robot.sectionName? line := by
  rw [Robot.sectionName?, Robot.sectionName?, Text.trim, String.toList_ofList, trim_trim]

/-- A line counts for an accepted text if something other than a comment is left of it. -/
theorem isInked_eq_of_trim (line : String) :
    Robot.isInked line = (!(Text.trim line).isEmpty && !startsWith (Text.trim line) "#") := by
  rw [Robot.isInked_eq, Robot.ink?, Text.trim, Chars.trim]
  cases hchars : Chars.trimStart line.toList with
  | nil => decide
  | cons c rest =>
    have hblank : isBlank c = false := by
      have hhead := List.head?_dropWhile_not isBlank line.toList
      rw [← Chars.trimStart, hchars] at hhead
      simpa using hhead
    have htrim : Chars.trimEnd (c :: rest) = c :: Chars.trimEnd rest :=
      trimEnd_append_cons hblank [] rest
    have hempty : (String.ofList (c :: Chars.trimEnd rest)).isEmpty = false := by
      rw [← Bool.not_eq_true, String.isEmpty_iff]
      exact mt (congrArg String.toList) (by simp)
    rw [htrim, Text.startsWith, hempty, String.toList_ofList, List.head?_cons, Option.any_some]
    by_cases hc : c = '#'
    · subst hc
      rfl
    · simp [Chars.startsWith, Chars.afterStart?, hc, Ne.symm hc]

theorem exists_of_wellFormed? {text out : String} (h : wellFormed? text = some out) :
    out = withoutFence text ++ "\n" ∧ ∃ header name,
      ((lines (withoutFence text)).map Text.trim).find?
        (fun line ↦ !line.isEmpty && !startsWith line "#") = some header ∧
      Robot.sectionName? header = some name ∧ name ∈ knownSections := by
  simp only [wellFormed?, bind, Option.bind_eq_some_iff] at h
  obtain ⟨header, hheader, name, hname, hout⟩ := h
  split at hout
  next hknown =>
    exact ⟨(Option.some.inj hout).symm, header, name, hheader, hname,
      List.contains_iff_mem.mp hknown⟩
  next => cases hout

/-- A fenced reply in its parts: the first line, and what is kept of the lines below it. -/
theorem toList_withoutFence {text : String} (h : startsWith (Text.trim text) "```" = true)
    (hne : withoutFence text ≠ "") : ∃ first rest, '\n' ∉ first ∧
      (Text.trim text).toList = first ++ '\n' :: rest ∧
      (rest ≠ [] ∧ ∀ c ∈ rest.getLast?, isBlank c = false) ∧
      (withoutFence text).toList = Chars.trimEnd ((Chars.beforeEnd? fence rest).getD rest) := by
  have hfeed : ("\n").toList = ['\n'] := rfl
  rw [withoutFence, if_pos h] at hne ⊢
  simp only [Text.breakOn?, hfeed] at hne ⊢
  by_cases hmem : '\n' ∈ (Text.trim text).toList
  · obtain ⟨first, rest, htext, hfirst⟩ := List.eq_append_cons_of_mem hmem
    have hlast : ∀ c ∈ (first ++ '\n' :: rest).getLast?, isBlank c = false := fun c hc ↦ by
      rw [← htext, Text.trim, String.toList_ofList] at hc
      exact isBlank_getLast_trimEnd hc
    have hrest : rest ≠ [] := by
      rintro rfl
      exact absurd (hlast '\n' (by simp)) (by decide)
    have hblank : ∀ c ∈ rest.getLast?, isBlank c = false := by
      rwa [List.append_cons, List.getLast?_append_of_ne_nil _ hrest] at hlast
    refine ⟨first, rest, hfirst, htext, ⟨hrest, hblank⟩, ?_⟩
    rw [htext, breakOn?_singleton hfirst]
    simp only [Option.map_some, Text.trimEnd, Text.beforeEnd?, String.toList_ofList,
      trimEnd_eq_self hblank]
    rw [Option.getD_map, String.toList_ofList]
    rfl
  · have hnone := contains_eq_false (List.mem_singleton_self '\n') hmem
    rw [Chars.contains, Option.isSome_eq_false_iff, Option.isNone_iff_eq_none] at hnone
    rw [hnone] at hne
    exact absurd (by decide +kernel) hne

theorem unfenced_iff {cs : List Char} :
    Unfenced cs ↔ ∀ line ∈ lines (String.ofList cs), isFence line = false := by
  rw [Text.lines, String.toList_ofList, List.forall_mem_map]
  refine forall₂_congr fun line _ ↦ ?_
  rw [← Bool.not_eq_true, isFence_iff, String.toList_ofList]

/-- A text that was trimmed starts with three backticks exactly if its first line is a fence. -/
theorem head?_lines_trim (text : String) :
    (lines (Text.trim text)).head?.any isFence = startsWith (Text.trim text) "```" := by
  have hhead : ∀ c ∈ (Text.trim text).toList.head?, isBlank c = false := fun c hc ↦ by
    rw [Text.trim, String.toList_ofList] at hc
    exact isBlank_of_head?_trim hc
  refine Bool.eq_iff_iff.mpr ?_
  rw [startsWith_iff, Text.lines, List.head?_map, Option.any_map]
  change _ ↔ fence <+: _
  by_cases hmem : '\n' ∈ (Text.trim text).toList
  · obtain ⟨first, rest, htext, hfirst⟩ := List.eq_append_cons_of_mem hmem
    have hfence : fence <+: first ++ '\n' :: rest ↔ fence <+: first :=
      ⟨prefix_of_prefix_append_cons (by decide), fun h ↦ h.trans (List.prefix_append _ _)⟩
    have hfirstHead : ∀ c ∈ first.head?, isBlank c = false := fun c hc ↦
      hhead c (by rw [htext, List.head?_append, hc]; rfl)
    rw [htext, lines_append_newline_of_not_mem hfirst, List.head?_cons, Option.any_some,
      isFence_iff, String.toList_ofList,
      startsFence_congr (trim_withoutReturn first), startsFence_iff_of_head? hfirstHead, hfence]
  · cases hchars : (Text.trim text).toList with
    | nil => decide
    | cons c others =>
      rw [hchars] at hmem hhead
      rw [lines_of_not_mem (List.cons_ne_nil _ _) hmem, List.head?_cons, Option.any_some,
        isFence_iff, String.toList_ofList, startsFence_iff_of_head? hhead]

/-- No line of what is kept of a reply is a fence exactly if the reply has outer fences only. -/
theorem unfenced_withoutFence_iff {text : String} (hne : withoutFence text ≠ "") :
    Unfenced (withoutFence text).toList ↔ OnlyOuterFences (lines (Text.trim text)) := by
  have hhead := head?_lines_trim text
  cases hstart : startsWith (Text.trim text) "```" with
  | false =>
    rw [onlyOuterFences_of_not (hhead.trans hstart), unfenced_iff, String.ofList_toList,
      withoutFence, if_neg]
    rw [hstart]
    decide
  | true =>
    obtain ⟨first, rest, hfirst, htext, ⟨hrest, hblank⟩, hkept⟩ := toList_withoutFence hstart hne
    obtain ⟨front, last, rfl, hfront, hlast⟩ := exists_last_line rest
    have hlastNe := ne_nil_of_getLast? hfront hrest hblank
    have hlines : lines (Text.trim text) = String.ofList (withoutReturn first) ::
        (lines (String.ofList front) ++ [String.ofList last]) := by
      rw [Text.lines, htext, lines_append_newline_of_not_mem hfirst, lines_append_of_isWhole hfront,
        lines_of_not_mem hlastNe hlast, List.map_cons, List.map_append, Text.lines,
        String.toList_ofList]
      rfl
    rw [hlines, List.head?_cons, Option.any_some, hstart] at hhead
    have hlastKept := not_startsFence_lastKept (String.ofList last)
    rw [String.toList_ofList] at hlastKept
    rw [hlines, onlyOuterFences_cons hhead, ← hlastKept, ← unfenced_iff,
      ← unfenced_append hfront (not_mem_lastKept hlast), hkept, unfenced_trimEnd,
      beforeEnd?_append hfront (by decide), Option.getD_map]
    rfl

theorem isBlank_getLast_withoutFence {text : String} {c : Char}
    (h : (withoutFence text).toList.getLast? = some c) : isBlank c = false := by
  rw [withoutFence] at h
  split at h
  next =>
    rw [Text.trimEnd, String.toList_ofList] at h
    exact isBlank_getLast_trimEnd h
  next =>
    rw [Text.trim, String.toList_ofList] at h
    exact isBlank_getLast_trimEnd h

/-- Accepted replies. The first line that counts is the header of a known section, the file ends in
a line feed, and it holds a fence exactly if the reply has one that neither opens it nor closes
it at its very end. -/
theorem accepted_reply_unfenced_iff {text out : String} (h : wellFormed? text = some out) :
    (∃ header name, (lines out).find? Robot.isInked = some header ∧
      Robot.sectionName? header = some name ∧ name ∈ knownSections) ∧
    endsWith out "\n" = true ∧
    ((∀ line ∈ lines out, isFence line = false) ↔ OnlyOuterFences (lines (Text.trim text))) := by
  obtain ⟨rfl, header, name, hheader, hname, hknown⟩ := exists_of_wellFormed? h
  have hne : withoutFence text ≠ "" := fun hempty ↦ by
    rw [hempty] at hheader
    cases hheader
  have hlines : lines (withoutFence text ++ "\n") = lines (withoutFence text) := by
    rw [Text.lines, Text.lines, String.toList_append]
    refine congrArg _ (lines_append_newline_of_getLast? ?_ fun c ↦ isBlank_getLast_withoutFence)
    rwa [Ne, String.toList_eq_nil_iff]
  rw [hlines]
  refine ⟨?_, endsWith_append _ _, ?_⟩
  · rw [List.find?_map, Option.map_eq_some_iff] at hheader
    obtain ⟨line, hline, rfl⟩ := hheader
    have hinked : (fun line ↦ !line.isEmpty && !startsWith line "#") ∘ Text.trim = Robot.isInked :=
      funext fun line ↦ by rw [Function.comp_apply, isInked_eq_of_trim line]
    rw [hinked] at hline
    exact ⟨line, name, hline, (sectionName?_trim line).symm.trans hname, hknown⟩
  · rw [← unfenced_withoutFence_iff hne, unfenced_iff, String.ofList_toList]

theorem accepted_reply_unfenced_iff_of_fenced :
    wellFormed? "```robot\n*** Keywords ***\nA\n```" = some "*** Keywords ***\nA\n" ∧
    (∃ header name, (lines "*** Keywords ***\nA\n").find? Robot.isInked = some header ∧
      Robot.sectionName? header = some name ∧ name ∈ knownSections) ∧
    endsWith "*** Keywords ***\nA\n" "\n" = true ∧
    ((∀ line ∈ lines "*** Keywords ***\nA\n", isFence line = false) ↔
      OnlyOuterFences (lines (Text.trim "```robot\n*** Keywords ***\nA\n```"))) :=
  have h : wellFormed? "```robot\n*** Keywords ***\nA\n```" = some "*** Keywords ***\nA\n" := by
    decide +kernel
  ⟨h, accepted_reply_unfenced_iff h⟩

/-- With a sentence below the code, the closing fence stays in the accepted file. -/
theorem exists_fence_above_sentence :
    ∃ out, wellFormed? "```robot\n*** Keywords ***\nA\n    Log    a\n```\nThis is the file." =
      some out ∧ ∃ line ∈ lines out, isFence line = true :=
  ⟨"*** Keywords ***\nA\n    Log    a\n```\nThis is the file.\n", by decide +kernel, "```",
    by decide +kernel, by decide +kernel⟩

end SuiteMigration.Completion
