import SuiteMigration.Proofs.Text.Lines
import SuiteMigration.Robot.Marker

/-!
Markers are read back as they are written. Putting a marker on a text replaces what markers there
are at its start, so reading the text gives that marker; and no reading gives a tier that is not
one of the three.
-/

set_option autoImplicit false
set_option relaxedAutoImplicit false

namespace SuiteMigration

theorem Mode.ofLabel?_label (mode : Mode) : Mode.ofLabel? mode.label = some mode := by
  cases mode <;> decide

theorem Tier.number_bounds (tier : Tier) : 1 ≤ tier.number ∧ tier.number ≤ 3 := by
  cases tier <;> decide

namespace Robot

open SuiteMigration.Text

/-! ### The marker line -/

/-- What a line says, if it is a marker. -/
def Marker.ofLine? (line : String) : Option Marker :=
  (afterStart? markerStart (trim line)).map fun rest ↦
    (words rest).foldl Marker.readWord { mode := .enhanced, tier := 1 }

/-- A marker whose tier is one of the three. -/
def Marker.Tiered (m : Marker) : Prop :=
  1 ≤ m.tier ∧ m.tier ≤ 3

/-- The words of a marker line after its start. -/
def Marker.fields (m : Marker) : List String :=
  ["mode=" ++ m.mode.label, "tier=" ++ toString m.tier] ++
    if m.validated then ["validated"] else []

theorem Marker.toList_render (m : Marker) :
    m.render.toList = Chars.join [' '] (markerStart.toList :: m.fields.map String.toList) := by
  have htext (s : String) : toString s = s := rfl
  unfold Marker.render Marker.fields
  cases m.validated <;> simp [htext]

theorem Marker.Tiered.cases {m : Marker} (h : m.Tiered) : m.tier = 1 ∨ m.tier = 2 ∨ m.tier = 3 := by
  obtain ⟨hlow, hhigh⟩ := h
  omega

theorem Marker.Tiered.isBlank_of_mem_fields {m : Marker} (h : m.Tiered) :
    ∀ field ∈ m.fields, field.toList ≠ [] ∧ ∀ c ∈ field.toList, isBlank c = false := by
  have hmode : ("mode=" ++ m.mode.label).toList.any isBlank = false := by
    cases m.mode <;> decide
  have htier : ("tier=" ++ toString m.tier).toList.any isBlank = false := by
    obtain htier | htier | htier := h.cases <;> rw [htier] <;> decide
  have hvalidated : ("validated").toList.any isBlank = false := by decide
  have hsplit : ∀ field ∈ m.fields, field = "mode=" ++ m.mode.label ∨
      field = "tier=" ++ toString m.tier ∨ field = "validated" := by
    unfold Marker.fields
    cases m.validated <;> simp
  intro field hfield
  obtain rfl | rfl | rfl := hsplit field hfield
  · exact ⟨by simp, Chars.isBlank_of_any hmode⟩
  · exact ⟨by simp, Chars.isBlank_of_any htier⟩
  · exact ⟨by simp, Chars.isBlank_of_any hvalidated⟩

theorem Marker.readWord_mode (m : Marker) (mode : Mode) :
    m.readWord ("mode=" ++ mode.label) = { m with mode } := by
  rw [Marker.readWord, afterStart?_start_append]
  dsimp only
  rw [Mode.ofLabel?_label, Option.getD_some]

theorem Marker.readWord_tier (m : Marker) {tier : Nat} (h : 1 ≤ tier ∧ tier ≤ 3) :
    m.readWord ("tier=" ++ toString tier) = { m with tier } := by
  have hmode : afterStart? "mode=" ("tier=" ++ toString tier) = none := by
    rw [afterStart?, String.toList_append]
    rfl
  have hread : markerTier (toString tier) = tier := by
    obtain rfl | rfl | rfl : tier = 1 ∨ tier = 2 ∨ tier = 3 := by omega
    all_goals decide
  rw [Marker.readWord, hmode]
  dsimp only
  rw [afterStart?_start_append]
  dsimp only
  rw [hread]

theorem Marker.readWord_validated (m : Marker) :
    m.readWord "validated" = { m with validated := true } := by
  have hmode : afterStart? "mode=" "validated" = none := by decide
  have htier : afterStart? "tier=" "validated" = none := by decide
  rw [Marker.readWord, hmode]
  dsimp only
  rw [htier]
  rfl

theorem Marker.Tiered.trim_render {m : Marker} (h : m.Tiered) : trim m.render = m.render := by
  have hfields := h.isBlank_of_mem_fields
  have hstart : markerStart.toList.head? = some '#' := by decide
  have hend : markerStart.toList.getLast? = some ':' := by decide
  have hparts : ∀ part ∈ markerStart.toList :: m.fields.map String.toList, part ≠ [] ∧
      (∀ c ∈ part.head?, isBlank c = false) ∧ ∀ c ∈ part.getLast?, isBlank c = false := by
    intro part hpart
    obtain rfl | hpart := List.mem_cons.mp hpart
    · rw [hstart, hend]
      refine ⟨by decide, fun c hc ↦ ?_, fun c hc ↦ ?_⟩
      · obtain rfl := Option.mem_some_iff.mp hc
        decide
      · obtain rfl := Option.mem_some_iff.mp hc
        decide
    · obtain ⟨field, hfield, rfl⟩ := List.mem_map.mp hpart
      obtain ⟨hne, hblank⟩ := hfields field hfield
      exact ⟨hne, fun c hc ↦ hblank c (List.mem_of_head? hc),
        fun c hc ↦ hblank c (List.mem_of_getLast? hc)⟩
  rw [trim, m.toList_render, Chars.trim_join (fun part hpart ↦ (hparts part hpart).1)
    (fun part hpart ↦ (hparts part hpart).2.1) (fun part hpart ↦ (hparts part hpart).2.2),
    ← m.toList_render, String.ofList_toList]

theorem Marker.Tiered.words_fields {m : Marker} (h : m.Tiered) :
    Chars.words (Chars.join [' '] (m.fields.map String.toList)) = m.fields.map String.toList := by
  have hword : ∀ part ∈ m.fields.map String.toList, Chars.words part = [part] := by
    intro part hpart
    obtain ⟨field, hfield, rfl⟩ := List.mem_map.mp hpart
    obtain ⟨hne, hblank⟩ := h.isBlank_of_mem_fields field hfield
    exact Chars.words_word hne hblank
  rw [Chars.words_join, List.flatMap_congr hword, List.flatMap_singleton']

/-- A marker line says what it was written for. -/
theorem Marker.Tiered.ofLine?_render {m : Marker} (h : m.Tiered) :
    Marker.ofLine? m.render = some m := by
  have hrender : m.render = markerStart ++
      String.ofList (' ' :: Chars.join [' '] (m.fields.map String.toList)) := by
    rw [← String.toList_inj, m.toList_render, String.toList_append, String.toList_ofList]
    exact Chars.join_cons_cons _ _ _ _
  have hwords : words (String.ofList (' ' :: Chars.join [' '] (m.fields.map String.toList))) =
      m.fields := by
    rw [words, String.toList_ofList, Chars.words_cons_blank isBlank_space, h.words_fields,
      map_ofList_map_toList]
  rw [Marker.ofLine?, h.trim_render, hrender, afterStart?_start_append, Option.map_some, hwords]
  unfold Marker.fields
  rw [List.foldl_append, List.foldl_cons, List.foldl_cons, List.foldl_nil, Marker.readWord_mode,
    Marker.readWord_tier _ h]
  obtain ⟨mode, tier, validated⟩ := m
  cases validated with
  | false => rfl
  | true => exact congrArg some (Marker.readWord_validated _)

theorem Marker.Tiered.oneLine_render {m : Marker} (h : m.Tiered) :
    Chars.OneLine m.render.toList := by
  have hmem : ∀ c ∈ m.render.toList, c = ' ' ∨ c ∈ markerStart.toList ∨ isBlank c = false := by
    intro c hc
    rw [m.toList_render] at hc
    obtain hc | ⟨part, hpart, hc⟩ := Chars.mem_join hc
    · exact Or.inl (List.mem_singleton.mp hc)
    · obtain rfl | hpart := List.mem_cons.mp hpart
      · exact Or.inr (Or.inl hc)
      · obtain ⟨field, hfield, rfl⟩ := List.mem_map.mp hpart
        exact Or.inr (Or.inr ((h.isBlank_of_mem_fields field hfield).2 c hc))
  refine fun c hc ↦ ⟨?_, ?_⟩
  · rintro rfl
    exact absurd (hmem _ hc) (by decide)
  · rintro rfl
    exact absurd (hmem _ hc) (by decide)

theorem Marker.Tiered.isLine_render {m : Marker} (h : m.Tiered) :
    Chars.IsLine m.render.toList :=
  h.oneLine_render.isLine

theorem Marker.render_eq_cons (m : Marker) : ∃ rest, m.render.toList = '#' :: rest := by
  unfold Marker.render markerStart
  simp

theorem Marker.Tiered.of_tier_eq {m n : Marker} (h : m.Tiered) (heq : n.tier = m.tier) :
    n.Tiered := by
  rwa [Marker.Tiered, heq]

/-- A word of a marker line gives a tier that is one of the three, or leaves the tier alone. -/
theorem Marker.Tiered.readWord {m : Marker} (h : m.Tiered) (word : String) :
    (m.readWord word).Tiered := by
  unfold Marker.readWord
  cases afterStart? "mode=" word with
  | some mode => exact h.of_tier_eq rfl
  | none =>
    cases afterStart? "tier=" word with
    | some tier => exact ⟨Nat.le_max_left _ _, Nat.max_le.mpr ⟨by decide, Nat.min_le_left _ _⟩⟩
    | none =>
      dsimp only
      split <;> exact h.of_tier_eq rfl

theorem Marker.Tiered.foldl {m : Marker} (h : m.Tiered) (words : List String) :
    (words.foldl Marker.readWord m).Tiered := by
  induction words generalizing m with
  | nil => exact h
  | cons word rest ih => exact ih (h.readWord word)

theorem Marker.tiered_of_ofLine? {line : String} {m : Marker} (h : Marker.ofLine? line = some m) :
    m.Tiered := by
  obtain ⟨rest, _, rfl⟩ := Option.map_eq_some_iff.mp h
  exact Marker.Tiered.foldl ⟨Nat.le_refl 1, by decide⟩ _

/-! ### The marker of a text -/

theorem Marker.parse?_eq (content : String) :
    Marker.parse? content =
      ((lines (withoutByteOrderMark content)).find? fun line ↦ !isBlankText line).bind
        Marker.ofLine? := by
  unfold Marker.parse? Marker.ofLine?
  simp only [Option.bind_eq_bind, Option.pure_def, Option.map_eq_bind, Function.comp_def]

theorem Marker.tiered_of_parse? {content : String} {m : Marker}
    (h : Marker.parse? content = some m) : m.Tiered := by
  rw [Marker.parse?_eq] at h
  obtain ⟨first, _, hfirst⟩ := Option.bind_eq_some_iff.mp h
  exact Marker.tiered_of_ofLine? hfirst

theorem withoutByteOrderMark_eq_self {content : String}
    (h : content.toList.head? ≠ some '\uFEFF') : withoutByteOrderMark content = content := by
  have hdrop : content.toList.dropWhile (fun c ↦ c.toNat == 0xFEFF) = content.toList := by
    rw [List.dropWhile_eq_self_iff]
    intro hpos hmark
    refine h ?_
    rw [List.head?_eq_getElem?, List.getElem?_eq_getElem hpos, ← Char.ofNat_toNat content.toList[0],
      eq_of_beq hmark]
  rw [withoutByteOrderMark, dropStartWhile, hdrop, String.ofList_toList]

/-- A text that starts with the line of a marker has that marker. -/
theorem Marker.Tiered.parse?_append {m : Marker} (h : m.Tiered) (rest : String) :
    Marker.parse? (m.render ++ "\n" ++ rest) = some m := by
  obtain ⟨others, hothers⟩ := m.render_eq_cons
  have hmark : withoutByteOrderMark (m.render ++ "\n" ++ rest) = m.render ++ "\n" ++ rest := by
    refine withoutByteOrderMark_eq_self ?_
    rw [String.toList_append, String.toList_append, hothers]
    exact fun hhead ↦ absurd (Option.some.inj hhead) (by decide)
  have hblank : isBlankText m.render = false := by
    rw [isBlankText, hothers, List.all_cons]
    rfl
  rw [Marker.parse?_eq, hmark, lines_append_newline h.isLine_render,
    List.find?_cons_of_pos (by rw [hblank]; rfl), Option.bind_some, h.ofLine?_render]

theorem ensureMarker_eq (content : String) (m : Marker) :
    ∃ rest, ensureMarker content m = m.render ++ "\n" ++ rest := by
  unfold ensureMarker
  dsimp only
  split
  · exact ⟨_, rfl⟩
  · exact ⟨_, String.append_assoc⟩

/-- The marker that is put on a text is read back, whatever the text holds itself. -/
theorem Marker.Tiered.parse?_ensureMarker {m : Marker} (h : m.Tiered) (content : String) :
    Marker.parse? (ensureMarker content m) = some m := by
  obtain ⟨rest, hrest⟩ := ensureMarker_eq content m
  rw [hrest]
  exact h.parse?_append rest

/-- Below its marker a text has the lines that were no markers; of these only an empty one at the
end may be lost. -/
theorem lines_ensureMarker {content : String} {m : Marker} (hm : m.Tiered)
    (h : ∀ line ∈ unmarkedLines content, Chars.IsLine line.toList) :
    ∃ kept, lines (ensureMarker content m) = m.render :: kept ∧
      (kept = unmarkedLines content ∨ unmarkedLines content = kept ++ [""]) := by
  have hline := hm.isLine_render
  unfold ensureMarker
  dsimp only
  split
  · exact ⟨_, lines_append_newline hline _, lines_intercalate_open h⟩
  next hends =>
    rw [String.append_assoc, lines_append_newline hline]
    refine ⟨_, rfl, Or.inl (lines_intercalate (fun hnil ↦ hends ?_) h)⟩
    rw [hnil, String.intercalate_nil, String.append_empty]
    exact endsWith_append _ "\n"

end Robot

end SuiteMigration
