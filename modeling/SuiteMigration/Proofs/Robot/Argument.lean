import Mathlib.Data.List.TakeWhile
import SuiteMigration.Proofs.Path.Segments
import SuiteMigration.Robot.Argument

/-!
The characters of converted expressions. Numbers and names are made of few characters, and an
expression with a quote is neither of them: unless it starts and ends with quotes, it has no exact
cell.
-/

set_option autoImplicit false
set_option relaxedAutoImplicit false

namespace SuiteMigration.Robot

open SuiteMigration.Text SuiteMigration.Java SuiteMigration.Keyword

/-! ### Numbers -/

/-- A character of numbers, of exponents or of the words for infinity and not-a-number. -/
def isNumberChar (c : Char) : Bool :=
  isAsciiDigit c || "+-.einftya".toList.contains (asciiLowerChar c)

theorem isNumberChar_of_isAsciiDigit {c : Char} (h : isAsciiDigit c = true) :
    isNumberChar c = true := by
  rw [isNumberChar, h]
  rfl

theorem isNumberChar_of_isExponent {cs : List Char} (h : isExponent cs = true) :
    ∀ c ∈ cs, isNumberChar c = true := by
  have hdigits {ds : List Char} (hall : ds.all isAsciiDigit = true) :
      ∀ c ∈ ds, isNumberChar c = true :=
    fun c hc ↦ isNumberChar_of_isAsciiDigit (List.all_eq_true.mp hall c hc)
  cases cs with
  | nil => exact List.forall_mem_nil _
  | cons c rest =>
    unfold isExponent at h
    obtain ⟨hletter, h⟩ := Bool.and_eq_true_iff.mp h
    have hc : isNumberChar c = true := by
      rw [Bool.or_eq_true, beq_iff_eq, beq_iff_eq] at hletter
      obtain rfl | rfl := hletter <;> decide
    replace h := (Bool.and_eq_true_iff.mp h).2
    refine List.forall_mem_cons.mpr ⟨hc, ?_⟩
    split at h
    · exact List.forall_mem_cons.mpr ⟨by decide, hdigits h⟩
    · exact List.forall_mem_cons.mpr ⟨by decide, hdigits h⟩
    · exact hdigits h

theorem isNumberChar_of_isUnsignedNumber {cs : List Char} (h : isUnsignedNumber cs = true) :
    ∀ c ∈ cs, isNumberChar c = true := by
  have hdigits (ds : List Char) : ∀ c ∈ ds.takeWhile isAsciiDigit, isNumberChar c = true :=
    fun c hc ↦ isNumberChar_of_isAsciiDigit (List.mem_takeWhile_imp hc)
  have hword {word : String}
      (hletters : word.toList.all ("+-.einftya".toList.contains ·) = true)
      (heq : toAsciiLower (String.ofList cs) = word) : ∀ c ∈ cs, isNumberChar c = true := by
    intro c hc
    have hmem : asciiLowerChar c ∈ word.toList := by
      rw [← heq, toAsciiLower, String.toList_ofList, String.toList_ofList]
      exact List.mem_map_of_mem hc
    rw [isNumberChar, List.all_eq_true.mp hletters _ hmem, Bool.or_true]
  unfold isUnsignedNumber at h
  dsimp only at h
  split at h
  next hname =>
    simp only [Bool.or_eq_true, beq_iff_eq] at hname
    obtain (heq | heq) | heq := hname
    · exact hword (by decide) heq
    · exact hword (by decide) heq
    · exact hword (by decide) heq
  next =>
    rw [← List.takeWhile_append_dropWhile (p := isAsciiDigit) (l := cs), List.forall_mem_append]
    refine ⟨hdigits cs, ?_⟩
    split at h
    next rest heq =>
      rw [heq, List.forall_mem_cons,
        ← List.takeWhile_append_dropWhile (p := isAsciiDigit) (l := rest), List.forall_mem_append]
      exact ⟨by decide, hdigits rest, isNumberChar_of_isExponent (Bool.and_eq_true_iff.mp h).2⟩
    next => exact isNumberChar_of_isExponent (Bool.and_eq_true_iff.mp h).2

theorem isNumberChar_of_isNumber {cs : List Char} (h : isNumber cs = true) :
    ∀ c ∈ cs, isNumberChar c = true := by
  unfold isNumber at h
  split at h
  · exact List.forall_mem_cons.mpr ⟨by decide, isNumberChar_of_isUnsignedNumber h⟩
  · exact List.forall_mem_cons.mpr ⟨by decide, isNumberChar_of_isUnsignedNumber h⟩
  · exact isNumberChar_of_isUnsignedNumber h

/-- A number literal has its suffix letters besides. -/
theorem isNumberChar_of_isNumberLiteral {text : String} (h : isNumberLiteral text = true) :
    ∀ c ∈ text.toList, isNumberChar c = true ∨ isNumberSuffix c = true := by
  intro c hc
  rw [isNumberLiteral, withoutNumberSuffix, dropEndWhile, String.toList_ofList] at h
  rw [← List.mem_reverse, ← List.takeWhile_append_dropWhile (p := isNumberSuffix)
    (l := text.toList.reverse), List.mem_append] at hc
  obtain hsuffix | hnumber := hc
  · exact Or.inr (List.mem_takeWhile_imp hsuffix)
  · exact Or.inl (isNumberChar_of_isNumber h c (List.mem_reverse.mpr hnumber))

/-! ### Names -/

theorem isNameChar_of_isName {cs : List Char} (h : isName cs = true) :
    ∀ c ∈ cs, isNameChar c = true := by
  cases cs with
  | nil => cases h
  | cons c rest =>
    rw [isName, Bool.and_eq_true, Bool.or_eq_true] at h
    refine List.forall_mem_cons.mpr ⟨?_, List.all_eq_true.mp h.2⟩
    obtain hletter | hunderscore := h.1
    · rw [isNameChar, isAlphanumeric, hletter]
      rfl
    · rw [isNameChar, hunderscore, Bool.or_true]

theorem isNameChar_of_qualifiedName? {cs : List Char} {reference : String}
    (h : qualifiedName? cs = some reference) : ∀ c ∈ cs, isNameChar c = true ∨ c = '.' := by
  intro c hc
  unfold qualifiedName? at h
  dsimp only at h
  split at h
  next =>
    split at h
    next hnames =>
      by_cases hpoint : c = '.'
      · exact Or.inr hpoint
      · obtain ⟨part, hpart, hmem⟩ := Chars.mem_splitBy hc (p := (· == '.')) (by simpa using hpoint)
        exact Or.inl (isNameChar_of_isName (List.all_eq_true.mp hnames part hpart) c hmem)
    next => cases h
  next => cases h

/-! ### Quotes -/

/-- An expression with a quote that is not quoted as a whole has no exact cell. -/
theorem exact_convertOperand_of_quote {cs : List Char} (hquote : '"' ∈ cs)
    (hquoted : isQuoted cs = false) : (convertOperand cs).exact = false := by
  have hword (word : String) (h : '"' ∉ word.toList) : (String.ofList cs == word) = false := by
    rw [beq_eq_false_iff_ne]
    rintro rfl
    exact h (by rwa [String.toList_ofList])
  have hnumber : isNumberLiteral (String.ofList cs) = false := by
    by_contra hnumber
    rw [Bool.not_eq_false] at hnumber
    have hchar := isNumberChar_of_isNumberLiteral hnumber '"' (by rwa [String.toList_ofList])
    exact absurd hchar (by decide)
  have hname : '"' ∈ (Chars.afterStart? "this.".toList cs).getD cs := by
    cases hthis : Chars.afterStart? "this.".toList cs with
    | none => exact hquote
    | some rest =>
      rw [Chars.eq_append_of_afterStart? hthis, List.mem_append] at hquote
      exact hquote.resolve_left (by decide)
  unfold convertOperand
  dsimp only
  rw [hquoted, hword "true" (by decide), hword "false" (by decide), hword "null" (by decide),
    hnumber]
  generalize (Chars.afterStart? "this.".toList cs).getD cs = name at hname
  have hplain : isName name = false := by
    by_contra hplain
    exact absurd (isNameChar_of_isName (Bool.not_eq_false _ ▸ hplain) '"' hname) (by decide)
  have hqualified : qualifiedName? name = none := by
    cases hreference : qualifiedName? name with
    | none => rfl
    | some reference =>
      exact absurd (isNameChar_of_qualifiedName? hreference '"' hname) (by decide)
  simp [hplain, hqualified]

end SuiteMigration.Robot
