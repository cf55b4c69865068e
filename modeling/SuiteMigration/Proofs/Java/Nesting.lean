import SuiteMigration.Proofs.Java.Step

/-!
Nested brackets. The parentheses and braces of the code are read with a stack of the brackets that
close the open ones. Where they are nested, the search for a closing bracket finds one, what stands
between the brackets is nested, and so is what follows.
-/

set_option autoImplicit false
set_option relaxedAutoImplicit false

namespace SuiteMigration.Java

/-- The bracket that closes a parenthesis or a brace. -/
def closerOf? (c : Char) : Option Char :=
  if c = '(' then some ')' else if c = '\x7b' then some '\x7d' else none

/-- The closing brackets that are awaited after a code character, the next one first; none if the
character is a closing bracket that is not the next one. -/
def nestChar (awaited : List Char) (c : Char) : Option (List Char) :=
  match closerOf? c with
  | some closing => some (closing :: awaited)
  | none =>
      if c = ')' ∨ c = '\x7d' then
        match awaited with
        | next :: others => if next = c then some others else none
        | [] => none
      else some awaited

def Mark.nest (awaited : List Char) (mark : Mark) : Option (List Char) :=
  if mark.kind = .code then nestChar awaited mark.char else some awaited

def nest (awaited : List Char) (ms : List Mark) : Option (List Char) :=
  ms.foldlM Mark.nest awaited

/-- A text whose parentheses and braces are nested, those in literals and comments apart. -/
def Nested (cs : List Char) : Prop :=
  nest [] (marks cs) = some []

instance (cs : List Char) : Decidable (Nested cs) :=
  inferInstanceAs (Decidable (_ = _))

theorem closerOf?_eq_some {opening closing : Char} (h : closerOf? opening = some closing) :
    (opening = '(' ∧ closing = ')') ∨ (opening = '\x7b' ∧ closing = '\x7d') := by
  unfold closerOf? at h
  split at h
  next hparenthesis => exact Or.inl ⟨hparenthesis, (Option.some.inj h).symm⟩
  next =>
    split at h
    next hbrace => exact Or.inr ⟨hbrace, (Option.some.inj h).symm⟩
    next => cases h

theorem nest_cons (awaited : List Char) (mark : Mark) (ms : List Mark) :
    nest awaited (mark :: ms) = (mark.nest awaited).bind (nest · ms) :=
  List.foldlM_cons

theorem exists_nest_of_append {awaited : List Char} {before after : List Mark}
    (h : nest awaited (before ++ after) = some []) : ∃ awaited', nest awaited' after = some [] := by
  rw [nest, List.foldlM_append] at h
  obtain ⟨awaited', _, hafter⟩ := Option.bind_eq_some_iff.mp h
  exact ⟨awaited', hafter⟩

section Nest

variable {opening closing : Char} (h : closerOf? opening = some closing)

include h

theorem nest_opening (awaited : List Char) (ms : List Mark) :
    nest awaited (⟨opening, .code⟩ :: ms) = nest (closing :: awaited) ms := by
  simp [nest, Mark.nest, nestChar, h]

theorem nestChar_closing (awaited : List Char) :
    nestChar (closing :: awaited) closing = some awaited := by
  rcases closerOf?_eq_some h with ⟨_, rfl⟩ | ⟨_, rfl⟩ <;> rfl

theorem eq_of_nestChar_closing {next : Char} {others awaited : List Char}
    (hnest : nestChar (next :: others) closing = some awaited) : next = closing := by
  by_contra hnext
  rcases closerOf?_eq_some h with ⟨_, rfl⟩ | ⟨_, rfl⟩ <;>
    simp [nestChar, closerOf?, hnext] at hnest

/-- A character that is no bracket of one kind leaves the brackets of that kind as they are. -/
theorem nestChar_other {c : Char} (hopening : c ≠ opening) (hclosing : c ≠ closing)
    {inner outer awaited : List Char}
    (hnest : nestChar (inner ++ closing :: outer) c = some awaited) :
    ∃ inner', awaited = inner' ++ closing :: outer ∧ nestChar inner c = some inner' ∧
      inner'.count closing = inner.count closing := by
  unfold nestChar at hnest ⊢
  cases hcloser : closerOf? c with
  | some other =>
    have hne : other ≠ closing := by
      rintro rfl
      rcases closerOf?_eq_some h with ⟨rfl, rfl⟩ | ⟨rfl, rfl⟩ <;>
        rcases closerOf?_eq_some hcloser with ⟨rfl, hother⟩ | ⟨rfl, hother⟩ <;> simp at *
    rw [hcloser] at hnest
    cases hnest
    exact ⟨other :: inner, rfl, rfl, List.count_cons_of_ne hne⟩
  | none =>
    simp only [hcloser] at hnest ⊢
    split at hnest
    next hclose =>
      cases inner with
      | nil =>
        rw [List.nil_append] at hnest
        exact absurd hnest (by simp [Ne.symm hclosing])
      | cons next others =>
        by_cases hnext : next = c
        · simp only [List.cons_append, if_pos hnext] at hnest ⊢
          cases hnest
          exact ⟨others, rfl, by simp [hclose], by rw [hnext, List.count_cons_of_ne hclosing]⟩
        · simp [hnext] at hnest
    next hclose =>
      cases hnest
      exact ⟨inner, rfl, by simp [hclose], rfl⟩

/-- Where brackets are nested, an awaited bracket is found, and what is before it and after it is
nested again. The brackets of its kind that are open inside are those among `inner`. -/
theorem closeMarks?_of_nest {inner outer : List Char} {ms : List Mark}
    (hnest : nest (inner ++ closing :: outer) ms = some []) :
    ∃ inside after, closeMarks? opening closing (inner.count closing) ms = some (inside, after) ∧
      nest inner inside = some [] ∧ nest outer after = some [] := by
  have hne : opening ≠ closing := by
    rcases closerOf?_eq_some h with ⟨rfl, rfl⟩ | ⟨rfl, rfl⟩ <;> decide
  induction ms generalizing inner with
  | nil => simp [nest] at hnest
  | cons mark rest ih =>
    -- the search goes on behind the mark, with other brackets open
    have hnext {inner' : List Char} (hmark : mark.nest inner = some inner')
        (hrest : nest (inner' ++ closing :: outer) rest = some [])
        (hclose : closeMarks? opening closing (inner.count closing) (mark :: rest) =
          (closeMarks? opening closing (inner'.count closing) rest).map fun found ↦
            (mark :: found.1, found.2)) :
        ∃ inside after, closeMarks? opening closing (inner.count closing) (mark :: rest) =
          some (inside, after) ∧ nest inner inside = some [] ∧ nest outer after = some [] := by
      obtain ⟨inside, after, hfound, hinside, hafter⟩ := ih hrest
      refine ⟨mark :: inside, after, by rw [hclose, hfound]; rfl, ?_, hafter⟩
      rw [nest_cons, hmark]
      exact hinside
    have hother (hopening : mark.isCode opening = false) (hclosing : mark.isCode closing = false) :
        closeMarks? opening closing (inner.count closing) (mark :: rest) =
          (closeMarks? opening closing (inner.count closing) rest).map fun found ↦
            (mark :: found.1, found.2) :=
      closeMarks?_append_other _ rest (List.forall_mem_singleton.mpr ⟨hopening, hclosing⟩)
    obtain ⟨c, kind⟩ := mark
    by_cases hkind : kind = .code
    · subst hkind
      by_cases hopening : c = opening
      · subst hopening
        rw [nest_opening h] at hnest
        have hmark : Mark.nest inner ⟨c, .code⟩ = some (closing :: inner) := by
          simp [Mark.nest, nestChar, h]
        refine hnext hmark hnest ?_
        rw [closeMarks?_cons_opening _ _ (isCode_self c), List.count_cons_self]
      have hcode : Mark.isCode ⟨c, .code⟩ opening = false := isCode_of_ne hopening
      obtain ⟨awaited, hmark, hrest⟩ := Option.bind_eq_some_iff.mp (nest_cons _ _ rest ▸ hnest)
      change nestChar _ c = some awaited at hmark
      by_cases hclosing : c = closing
      · subst hclosing
        cases inner with
        | nil =>
          rw [List.nil_append, nestChar_closing h] at hmark
          cases hmark
          refine ⟨[], rest, ?_, rfl, hrest⟩
          exact closeMarks?_zero_cons_closing rest hcode (isCode_self c)
        | cons next others =>
          obtain rfl : next = c := eq_of_nestChar_closing h hmark
          rw [List.cons_append, nestChar_closing h] at hmark
          cases hmark
          refine hnext (nestChar_closing h others) hrest ?_
          rw [List.count_cons_self, closeMarks?_cons_closing _ _ hcode (isCode_self next)]
      · obtain ⟨inner', rfl, hinner, hcount⟩ := nestChar_other h hopening hclosing hmark
        refine hnext hinner hrest ?_
        rw [hcount]
        exact hother hcode (isCode_of_ne hclosing)
    · have hpass (awaited : List Char) : Mark.nest awaited ⟨c, kind⟩ = some awaited := if_neg hkind
      have hcode (d : Char) : Mark.isCode ⟨c, kind⟩ d = false := by simp [Mark.isCode, hkind]
      rw [nest_cons, hpass] at hnest
      exact hnext (hpass inner) hnest (hother (hcode _) (hcode _))

/-- What stands between nested brackets is nested. -/
theorem exists_closeMarks? {awaited : List Char} {before after : List Mark}
    (hnest : nest awaited (before ++ ⟨opening, .code⟩ :: after) = some []) :
    ∃ inside rest awaited', closeMarks? opening closing 0 after = some (inside, rest) ∧
      nest [] inside = some [] ∧ nest awaited' rest = some [] := by
  obtain ⟨awaited', hafter⟩ := exists_nest_of_append hnest
  rw [nest_opening h, ← List.nil_append (closing :: awaited')] at hafter
  obtain ⟨inside, rest, hclose, hinside, hrest⟩ := closeMarks?_of_nest h hafter
  exact ⟨inside, rest, awaited', hclose, hinside, hrest⟩

end Nest

end SuiteMigration.Java
