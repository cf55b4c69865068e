import Mathlib.Data.List.Chain
import SuiteMigration.Proofs.Text.Words
import SuiteMigration.Robot.Cell

/-!
Cells are read back as they are written. A character is written in one of three ways, and which one
depends on its place and on the character after it; none of the three starts like another, so a
reader that goes from left to right takes them apart again. A written cell also holds nothing that a
reader of rows would take for a separator, a comment or the end of a line.
-/

set_option autoImplicit false
set_option relaxedAutoImplicit false

namespace SuiteMigration.Robot

open SuiteMigration.Text

/-! ### How a character is written -/

/-- The three ways to write a character of a cell: behind a backslash, as the variable for a space,
or as it is. -/
inductive Written (isFirst : Bool) (c : Char) (rest : List Char) : List Char → Prop where
  | escaped {d : Char} (image : unescapedChar? d = some c) : Written isFirst c rest ['\\', d]
  | space (blank : c = ' ') : Written isFirst c rest spaceCell.toList
  | plain (backslash : c ≠ '\\') (feed : c ≠ '\n') (tab : c ≠ '\t')
      (comment : c = '#' → isFirst = false)
      (marker : isVariableMarker c = true → rest.head? ≠ some '\x7b')
      (blank : c = ' ' → isFirst = false ∧ rest ≠ [] ∧ rest.head? ≠ some ' ') :
      Written isFirst c rest [c]

theorem written_escapeChar (isFirst : Bool) (c : Char) (rest : List Char) :
    Written isFirst c rest (escapeChar isFirst c rest) := by
  unfold escapeChar
  split
  next h => exact .escaped (by rw [eq_of_beq h]; rfl)
  next hbackslash =>
  split
  next h => exact .escaped (by rw [eq_of_beq h]; rfl)
  next hfeed =>
  split
  next h => exact .escaped (by rw [eq_of_beq h]; rfl)
  next htab =>
  split
  next h => exact .escaped (by rw [eq_of_beq (Bool.and_eq_true_iff.mp h).1]; rfl)
  next hcomment =>
  split
  next h =>
    refine .escaped ?_
    rw [unescapedChar?, (Bool.and_eq_true_iff.mp h).1, Bool.or_true]
    rfl
  next hvariable =>
  split
  next h => exact .space (eq_of_beq (Bool.and_eq_true_iff.mp h).1)
  next hblank =>
    simp only [beq_iff_eq, Bool.and_eq_true, Bool.or_eq_true, List.isEmpty_iff, not_and, not_or,
      Bool.not_eq_true] at *
    exact .plain hbackslash hfeed htab hcomment hvariable fun h ↦
      ⟨(hblank h).1.1, (hblank h).1.2, (hblank h).2⟩

theorem escapeFrom_cons (isFirst : Bool) (c : Char) (rest : List Char) :
    ∃ written, escapeFrom isFirst (c :: rest) = written ++ escapeFrom false rest ∧
      Written isFirst c rest written :=
  ⟨_, rfl, written_escapeChar isFirst c rest⟩

/-- A character behind a backslash is none that ends a line or separates cells. -/
theorem ne_of_unescapedChar? {c d : Char} (h : unescapedChar? d = some c) :
    d ≠ '\n' ∧ d ≠ '\t' ∧ d ≠ ' ' := by
  refine ⟨?_, ?_, ?_⟩ <;> rintro rfl <;> exact absurd h (by simp [unescapedChar?, isVariableMarker])

theorem escapeFrom_ne_nil (isFirst : Bool) {cs : List Char} (h : cs ≠ []) :
    escapeFrom isFirst cs ≠ [] := by
  obtain ⟨c, rest, rfl⟩ := List.exists_cons_of_ne_nil h
  obtain ⟨written, heq, hwritten⟩ := escapeFrom_cons isFirst c rest
  rw [heq]
  cases hwritten <;> exact List.cons_ne_nil _ _

/-- What is written for a text starts with a backslash, with a variable or with the first character
of the text. -/
theorem head?_escapeFrom {isFirst : Bool} {cs : List Char} {c : Char}
    (h : (escapeFrom isFirst cs).head? = some c) : c = '\\' ∨ c = '$' ∨ cs.head? = some c := by
  cases cs with
  | nil => cases h
  | cons d rest =>
    obtain ⟨written, heq, hwritten⟩ := escapeFrom_cons isFirst d rest
    rw [heq] at h
    cases hwritten with
    | escaped => exact Or.inl (Option.some.inj h).symm
    | space => exact Or.inr (Or.inl (Option.some.inj h).symm)
    | plain => exact Or.inr (Or.inr h)

theorem head?_escapeFrom_append_ne {isFirst : Bool} {cs : List Char} (hne : cs ≠ [])
    (hbrace : cs.head? ≠ some '\x7b') (rest : List Char) :
    (escapeFrom isFirst cs ++ rest).head? ≠ some '\x7b' := by
  rw [List.head?_append_of_ne_nil _ (escapeFrom_ne_nil isFirst hne)]
  intro hhead
  obtain hbackslash | hdollar | hfirst := head?_escapeFrom hhead
  · cases hbackslash
  · cases hdollar
  · exact hbrace hfirst

/-! ### Reading back -/

theorem decodeFrom_escaped {c d : Char} (h : unescapedChar? d = some c) (rest : List Char) :
    decodeFrom 0 ('\\' :: d :: rest) = c :: decodeFrom 0 rest := by
  simp [decodeFrom, h]

theorem decodeFrom_space (rest : List Char) :
    decodeFrom 0 (spaceCell.toList ++ rest) = ' ' :: decodeFrom 0 rest := by
  have hlength : ("$\x7bSPACE\x7d").length = 8 := by decide
  simp [decodeFrom, spaceCell, Chars.startsWith, Chars.afterStart?, hlength]

/-- What follows the marker in the variable for a space. -/
def spaceReference : List Char :=
  "\x7bSPACE\x7d".toList

theorem toList_spaceCell : spaceCell.toList = '$' :: spaceReference := rfl

/-- A character is read as itself, unless it is a backslash or starts a variable. -/
theorem decodeFrom_plain {c : Char} {rest : List Char} (hbackslash : c ≠ '\\')
    (hmarker : c = '$' → ¬ spaceReference <+: rest) :
    decodeFrom 0 (c :: rest) = c :: decodeFrom 0 rest := by
  have hstart : Chars.startsWith (c :: rest) spaceCell.toList = false := by
    by_contra hstart
    rw [Bool.not_eq_false] at hstart
    obtain ⟨others, hothers⟩ := Option.isSome_iff_exists.mp hstart
    obtain ⟨rfl, hrest⟩ := List.cons.inj (Chars.eq_append_of_afterStart? hothers)
    exact hmarker rfl ⟨others, hrest.symm⟩
  simp [decodeFrom, hbackslash, hstart]

/-- The first character of a text is read back from what is written for the text. If it is a marker
and all of the text, what stands behind it must not go on with a variable. -/
theorem decodeFrom_escapeFrom_cons {isFirst : Bool} {c : Char} {more rest : List Char}
    (h : c = '$' → more = [] → ¬ spaceReference <+: rest) :
    decodeFrom 0 (escapeFrom isFirst (c :: more) ++ rest) =
      c :: decodeFrom 0 (escapeFrom false more ++ rest) := by
  obtain ⟨written, heq, hwritten⟩ := escapeFrom_cons isFirst c more
  rw [heq, List.append_assoc]
  cases hwritten with
  | escaped image => exact decodeFrom_escaped image _
  | space blank => rw [decodeFrom_space, blank]
  | plain backslash _ _ _ marker _ =>
    rw [List.singleton_append]
    refine decodeFrom_plain backslash ?_
    rintro rfl hreference
    by_cases hmore : more = []
    · subst hmore
      exact h rfl rfl hreference
    · obtain ⟨after, hafter⟩ := hreference
      exact head?_escapeFrom_append_ne hmore (marker rfl) rest (by rw [← hafter]; rfl)

/-- A text is read back from what is written for it, whatever stands behind that; it only must not
go on with a variable that a marker at the end of the text would start. -/
theorem decodeFrom_escapeFrom (isFirst : Bool) (cs rest : List Char)
    (h : cs.getLast? = some '$' → ¬ spaceReference <+: rest) :
    decodeFrom 0 (escapeFrom isFirst cs ++ rest) = cs ++ decodeFrom 0 rest := by
  induction cs generalizing isFirst with
  | nil => rfl
  | cons c more ih =>
    rw [decodeFrom_escapeFrom_cons fun hc hmore ↦ h (by rw [hc, hmore]; rfl), ih, List.cons_append]
    intro hlast
    exact h (by rw [List.getLast?_cons, hlast]; rfl)

theorem decodeFrom_escapeFrom_nil (cs : List Char) : decodeFrom 0 (escapeFrom true cs) = cs := by
  have hdecoded := decodeFrom_escapeFrom true cs [] (fun _ h ↦ absurd h (by decide))
  rwa [List.append_nil, decodeFrom, List.append_nil] at hdecoded

/-! ### What a reader of rows sees -/

theorem ne_of_mem_escapeFrom {isFirst : Bool} {cs : List Char} {c : Char}
    (h : c ∈ escapeFrom isFirst cs) : c ≠ '\n' ∧ c ≠ '\t' := by
  induction cs generalizing isFirst with
  | nil => cases h
  | cons d rest ih =>
    obtain ⟨written, heq, hwritten⟩ := escapeFrom_cons isFirst d rest
    rw [heq] at h
    obtain h | h := List.mem_append.mp h
    · cases hwritten with
      | escaped image =>
        obtain rfl | h := List.mem_cons.mp h
        · decide
        · rw [List.mem_singleton.mp h]
          obtain ⟨hfeed, htab, _⟩ := ne_of_unescapedChar? image
          exact ⟨hfeed, htab⟩
      | space =>
        have hfeed : '\n' ∉ spaceCell.toList := by decide
        have htab : '\t' ∉ spaceCell.toList := by decide
        exact ⟨fun heq ↦ hfeed (heq ▸ h), fun heq ↦ htab (heq ▸ h)⟩
      | plain _ feed tab =>
        rw [List.mem_singleton.mp h]
        exact ⟨feed, tab⟩
    · exact ih h

/-- After a space comes another character. -/
theorem isChain_escapeFrom (isFirst : Bool) (cs : List Char) :
    (escapeFrom isFirst cs).IsChain fun c d ↦ ¬ (c = ' ' ∧ d = ' ') := by
  induction cs generalizing isFirst with
  | nil => exact .nil
  | cons c rest ih =>
    obtain ⟨written, heq, hwritten⟩ := escapeFrom_cons isFirst c rest
    rw [heq, List.isChain_append]
    cases hwritten with
    | escaped image =>
      refine ⟨by simp, ih false, fun x hx y _ hspaces ↦ ?_⟩
      obtain rfl := Option.some.inj hx
      exact (ne_of_unescapedChar? image).2.2 hspaces.1
    | space =>
      have hlast : spaceCell.toList.getLast? = some '\x7d' := by decide
      refine ⟨by decide, ih false, fun x hx y _ hspaces ↦ ?_⟩
      rw [hlast] at hx
      obtain rfl := Option.some.inj hx
      exact absurd hspaces.1 (by decide)
    | plain _ _ _ _ _ blank =>
      refine ⟨by simp, ih false, fun x hx y hy hspaces ↦ ?_⟩
      obtain rfl := Option.some.inj hx
      obtain ⟨rfl, rfl⟩ := hspaces
      obtain h | h | h := head?_escapeFrom hy
      · cases h
      · cases h
      · exact (blank rfl).2.2 h

theorem getLast?_escapeFrom (isFirst : Bool) (cs : List Char) :
    (escapeFrom isFirst cs).getLast? ≠ some ' ' := by
  induction cs generalizing isFirst with
  | nil => exact nofun
  | cons c rest ih =>
    obtain ⟨written, heq, hwritten⟩ := escapeFrom_cons isFirst c rest
    rw [heq]
    by_cases hrest : rest = []
    · subst hrest
      rw [escapeFrom, List.append_nil]
      cases hwritten with
      | escaped image => exact fun h ↦ (ne_of_unescapedChar? image).2.2 (Option.some.inj h)
      | space => decide
      | plain _ _ _ _ _ blank => exact fun h ↦ (blank (Option.some.inj h)).2.1 rfl
    · rw [List.getLast?_append_of_ne_nil _ (escapeFrom_ne_nil false hrest)]
      exact ih false

/-- A cell starts neither with a space nor like a comment. -/
theorem head?_escapeFrom_true (cs : List Char) :
    (escapeFrom true cs).head? ≠ some ' ' ∧ (escapeFrom true cs).head? ≠ some '#' := by
  cases cs with
  | nil => exact ⟨nofun, nofun⟩
  | cons c rest =>
    obtain ⟨written, heq, hwritten⟩ := escapeFrom_cons true c rest
    rw [heq]
    cases hwritten with
    | escaped => exact ⟨by simp, by simp⟩
    | space => exact ⟨by simp [spaceCell], by simp [spaceCell]⟩
    | plain _ _ _ comment _ blank =>
      exact ⟨fun h ↦ Bool.noConfusion (blank (Option.some.inj h)).1,
        fun h ↦ Bool.noConfusion (comment (Option.some.inj h))⟩

/-! ### Cells -/

/-- The cell of a text that is not empty. -/
theorem toList_escapeCell {text : String} (h : text ≠ "") :
    (escapeCell text).toList = escapeFrom true text.toList := by
  have hempty : text.toList.isEmpty = false := by
    simpa [List.isEmpty_eq_false_iff] using h
  rw [escapeCell, String.toList_ofList, escapeChars, hempty]
  rfl

/-- Only the empty text is written as the variable that stands for it. -/
theorem escapeCell_ne_emptyCell {text : String} (h : text ≠ "") : escapeCell text ≠ emptyCell := by
  intro heq
  have hchars : escapeFrom true text.toList = emptyCell.toList := by
    rw [← toList_escapeCell h, heq]
  have hdecoded := decodeFrom_escapeFrom_nil text.toList
  have hself : decodeFrom 0 emptyCell.toList = emptyCell.toList := by decide
  -- so the text would be the variable itself, but that is written behind a backslash
  rw [hchars, hself] at hdecoded
  rw [← hdecoded] at hchars
  exact absurd hchars (by decide)

theorem not_two_spaces {cs : List Char} (h : cs.IsChain fun c d ↦ ¬ (c = ' ' ∧ d = ' ')) :
    ¬ [' ', ' '] <:+: cs := by
  rintro ⟨before, after, rfl⟩
  rw [List.append_assoc, List.isChain_append] at h
  exact (List.isChain_cons_cons.mp h.2.1).1 ⟨rfl, rfl⟩

/-- Cells are read back, and can stand in a row: for every text, reading its cell gives the text,
and the cell is not empty, holds neither line feed nor tab nor two spaces in a row, does not start
or end with a space, and does not start like a comment. -/
theorem cell_round_trip (text : String) :
    decodeCell (escapeCell text) = text ∧
      escapeCell text ≠ "" ∧
      '\n' ∉ (escapeCell text).toList ∧ '\t' ∉ (escapeCell text).toList ∧
      ¬ [' ', ' '] <:+: (escapeCell text).toList ∧
      (escapeCell text).toList.head? ≠ some ' ' ∧
      (escapeCell text).toList.getLast? ≠ some ' ' ∧
      (escapeCell text).toList.head? ≠ some '#' := by
  by_cases hempty : text = ""
  · subst hempty
    exact ⟨rfl, by decide, by decide, by decide, not_two_spaces (by decide), by decide, by decide,
      by decide⟩
  · have hchars := toList_escapeCell hempty
    refine ⟨?_, ?_, ?_⟩
    · rw [decodeCell, if_neg (by simpa using escapeCell_ne_emptyCell hempty), hchars,
        decodeFrom_escapeFrom_nil, String.ofList_toList]
    · intro h
      rw [h] at hchars
      exact escapeFrom_ne_nil true (by simpa using hempty) hchars.symm
    · obtain ⟨hspace, hcomment⟩ := head?_escapeFrom_true text.toList
      rw [hchars]
      exact ⟨fun h ↦ (ne_of_mem_escapeFrom h).1 rfl, fun h ↦ (ne_of_mem_escapeFrom h).2 rfl,
        not_two_spaces (isChain_escapeFrom true _), hspace, getLast?_escapeFrom true _, hcomment⟩

example : escapeCell " #$\x7bx\x7d  \\n " =
    "$\x7bSPACE\x7d#\\$\x7bx\x7d$\x7bSPACE\x7d \\\\n$\x7bSPACE\x7d" := by decide +kernel

end SuiteMigration.Robot
