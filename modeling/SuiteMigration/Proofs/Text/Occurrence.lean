import SuiteMigration.Proofs.Text.Words
import SuiteMigration.Text.Occurrence

/-!
Occurrences of a pattern in a text that is joined from parts. A pattern that leaves some parts alone
and takes the others is replaced part by part; a pattern that needs a character finds nothing in a
text without it.
-/

set_option autoImplicit false
set_option relaxedAutoImplicit false

namespace SuiteMigration.Text

variable {recognise : Recogniser} {word : List Char}

/-- What a piece is replaced by. -/
def Piece.image (image : List Char → List Char) : Piece → List Char
  | .found text => image text
  | .plain c => [c]

theorem replaceOccurrences_eq (recognise : Recogniser) (image : List Char → List Char)
    (cs : List Char) :
    replaceOccurrences recognise image cs = (pieces recognise cs).flatMap (Piece.image image) := by
  refine congrArg (fun f ↦ (pieces recognise cs).flatMap f) (funext fun piece ↦ ?_)
  cases piece <;> rfl

theorem length_occurrences (recognise : Recogniser) (cs : List Char) :
    (occurrences recognise cs).length = (pieces recognise cs).countP Piece.isFound := by
  unfold occurrences
  induction pieces recognise cs with
  | nil => rfl
  | cons piece rest ih => cases piece <;> simp [Piece.isFound, List.countP_cons, ih]

/-- Whatever follows a part, the pattern turns it into a result, with a number of occurrences that
are each replaced by a word. -/
def Recogniser.Rewrites (recognise : Recogniser) (word part result : List Char) (count : Nat) :
    Prop :=
  ∀ before rest, ∃ last,
    (piecesFrom recognise 0 before (part ++ rest)).flatMap (Piece.image fun _ ↦ word) =
        result ++ (piecesFrom recognise 0 last rest).flatMap (Piece.image fun _ ↦ word) ∧
      (piecesFrom recognise 0 before (part ++ rest)).countP Piece.isFound =
        count + (piecesFrom recognise 0 last rest).countP Piece.isFound

namespace Recogniser

theorem Rewrites.replaceOccurrences {part result : List Char} {count : Nat}
    (h : recognise.Rewrites word part result count) :
    replaceOccurrences recognise (fun _ ↦ word) part = result ∧
      (occurrences recognise part).length = count := by
  obtain ⟨last, himage, hcount⟩ := h none []
  rw [List.append_nil] at himage hcount
  rw [replaceOccurrences_eq, length_occurrences, pieces, himage, hcount]
  simp [piecesFrom]

theorem Rewrites.nil : recognise.Rewrites word [] [] 0 :=
  fun before _ ↦ ⟨before, rfl, (Nat.zero_add _).symm⟩

theorem Rewrites.append {part result other otherResult : List Char} {count otherCount : Nat}
    (h : recognise.Rewrites word part result count)
    (hother : recognise.Rewrites word other otherResult otherCount) :
    recognise.Rewrites word (part ++ other) (result ++ otherResult) (count + otherCount) := by
  intro before rest
  obtain ⟨middle, himage, hcount⟩ := h before (other ++ rest)
  obtain ⟨last, hotherImage, hotherNumber⟩ := hother middle rest
  refine ⟨last, ?_, ?_⟩
  · rw [List.append_assoc, himage, hotherImage, List.append_assoc]
  · rw [List.append_assoc, hcount, hotherNumber, Nat.add_assoc]

theorem Rewrites.cons {c : Char} {part result : List Char} {count : Nat}
    (hc : ∀ before rest, recognise before (c :: part ++ rest) = none)
    (h : recognise.Rewrites word part result count) :
    recognise.Rewrites word (c :: part) (c :: result) count := by
  intro before rest
  obtain ⟨last, himage, hcount⟩ := h (some c) rest
  have hpieces : piecesFrom recognise 0 before (c :: part ++ rest) =
      .plain c :: piecesFrom recognise 0 (some c) (part ++ rest) := by
    have hnone := hc before rest
    rw [List.cons_append] at hnone ⊢
    rw [piecesFrom, hnone]
  refine ⟨last, ?_, ?_⟩
  · rw [hpieces, List.flatMap_cons, himage]
    rfl
  · rw [hpieces, List.countP_cons_of_neg Bool.false_ne_true, hcount]

/-- A part stays as it is if the pattern starts with none of its characters. -/
theorem rewrites_self {part : List Char}
    (h : ∀ c ∈ part, ∀ before rest, recognise before (c :: rest) = none) :
    recognise.Rewrites word part part 0 := by
  induction part with
  | nil => exact Rewrites.nil
  | cons c more ih =>
    exact Rewrites.cons (fun before rest ↦ h c List.mem_cons_self before (more ++ rest))
      (ih fun d hd ↦ h d (List.mem_cons_of_mem _ hd))

/-- The characters of an occurrence are skipped. -/
theorem piecesFrom_skip (recognise : Recogniser) (part rest : List Char) (before : Option Char) :
    ∃ last, piecesFrom recognise part.length before (part ++ rest) =
      piecesFrom recognise 0 last rest := by
  induction part generalizing before with
  | nil => exact ⟨before, rfl⟩
  | cons c more ih => exact ih (some c)

/-- A part is replaced if the pattern takes just that part. -/
theorem rewrites_word {part : List Char} (hne : part ≠ [])
    (h : ∀ before rest, recognise before (part ++ rest) = some part.length) :
    recognise.Rewrites word part word 1 := by
  intro before rest
  obtain ⟨c, more, rfl⟩ := List.exists_cons_of_ne_nil hne
  obtain ⟨last, hlast⟩ := piecesFrom_skip recognise more rest (some c)
  have hpieces : piecesFrom recognise 0 before (c :: more ++ rest) =
      .found ((c :: more ++ rest).take (c :: more).length) :: piecesFrom recognise 0 last rest := by
    have hfound := h before rest
    rw [List.cons_append] at hfound ⊢
    rw [piecesFrom, hfound, ← hlast]
    rfl
  refine ⟨last, ?_, ?_⟩
  · rw [hpieces, List.flatMap_cons]
    rfl
  · rw [hpieces, List.countP_cons_of_pos rfl, Nat.add_comm]

/-- A text that is joined from parts is rewritten part by part. -/
theorem Rewrites.join {α : Type} {text result : α → List Char} {found : α → Bool}
    (hspace : recognise.Rewrites word [' '] [' '] 0)
    (hitem : ∀ a, recognise.Rewrites word (text a) (result a) (found a).toNat) (items : List α) :
    recognise.Rewrites word (Chars.join [' '] (items.map text))
      (Chars.join [' '] (items.map result)) (items.countP found) := by
  induction items with
  | nil => exact Rewrites.nil
  | cons a others ih =>
    have hcount : (a :: others).countP found = (found a).toNat + 0 + others.countP found := by
      cases ha : found a <;> simp [ha, Nat.add_comm]
    cases others with
    | nil =>
      rw [hcount]
      simpa using hitem a
    | cons b more =>
      rw [hcount, List.map_cons, List.map_cons, List.map_cons, List.map_cons,
        Chars.join_cons_cons, Chars.join_cons_cons]
      exact ((hitem a).append hspace).append ih

/-! ### Characters that a pattern needs -/

/-- The pattern is found only in texts that hold a character. -/
def Needs (recognise : Recogniser) (c : Char) : Prop :=
  ∀ before cs, c ∉ cs → recognise before cs = none

theorem Needs.piecesFrom {c : Char} (h : recognise.Needs c) {cs : List Char} (hc : c ∉ cs)
    (before : Option Char) : piecesFrom recognise 0 before cs = cs.map .plain := by
  induction cs generalizing before with
  | nil => rfl
  | cons d rest ih =>
    rw [Text.piecesFrom, h before (d :: rest) hc]
    exact congrArg _ (ih (fun hmem ↦ hc (List.mem_cons_of_mem _ hmem)) (some d))

theorem Needs.replaceOccurrences {c : Char} (h : recognise.Needs c) {cs : List Char} (hc : c ∉ cs)
    (image : List Char → List Char) : replaceOccurrences recognise image cs = cs := by
  rw [replaceOccurrences_eq, pieces, h.piecesFrom hc, List.flatMap_map]
  exact List.flatMap_singleton' cs

theorem Needs.occurrences {c : Char} (h : recognise.Needs c) {cs : List Char} (hc : c ∉ cs) :
    occurrences recognise cs = [] := by
  rw [← List.length_eq_zero_iff, length_occurrences, pieces, h.piecesFrom hc, List.countP_map,
    List.countP_eq_zero]
  exact fun _ _ ↦ Bool.false_ne_true

end Recogniser

end SuiteMigration.Text
