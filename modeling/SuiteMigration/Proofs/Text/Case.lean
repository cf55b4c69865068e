import SuiteMigration.Keyword.Name
import SuiteMigration.Proofs.Text.Lines

/-!
Texts in title case, in upper case and in lower case. The upper case of a character may be several
characters, but symbols, digits and control characters come only from themselves, so a title holds
no symbol and no line end that its text does not hold.

What a character becomes in lower case depends on its neighbours only for the capital sigma, and a
space ends what counts for it in both directions; so the lower case of a text is that of the parts
between its spaces, each on its own.
-/

set_option autoImplicit false
set_option relaxedAutoImplicit false

namespace SuiteMigration.Text

/-! ### Images of characters -/

theorem Table.shifted_cases (shifts : List Shift) (n : Nat) :
    shifted shifts n = n ∨ ∃ shift ∈ shifts, shift.run.first ≤ n ∧ n ≤ shift.run.last ∧
      shifted shifts n = (Int.ofNat n + shift.offset).toNat := by
  induction shifts with
  | nil => exact Or.inl rfl
  | cons shift rest ih =>
    unfold shifted
    split
    · split
      next hrun =>
        simp only [Run.contains, Bool.and_eq_true, decide_eq_true_eq] at hrun
        exact Or.inr ⟨shift, List.mem_cons_self, hrun.1.1, hrun.1.2, rfl⟩
      next => exact Or.inl rfl
    · obtain hsame | ⟨other, hother, hshift⟩ := ih
      · exact Or.inl hsame
      · exact Or.inr ⟨other, List.mem_cons_of_mem _ hother, hshift⟩

section MapCase

variable {expansions : List (Nat × List Nat)} {shifts : List Table.Shift} {c d : Char}

/-- What the image of a character can hold: the character itself, or an image in the tables. -/
theorem mem_mapCase_cases (hzero : d.toNat ≠ 0) (h : d ∈ mapCase expansions shifts c) :
    c = d ∨
      (∃ shift ∈ shifts, Int.ofNat shift.run.first + shift.offset ≤ d.toNat ∧
        d.toNat ≤ Int.ofNat shift.run.last + shift.offset) ∨
      ∃ pair ∈ expansions, d.toNat ∈ pair.2 := by
  have hcode {n : Nat} (hn : d = Char.ofNat n) : n = d.toNat := by
    by_cases hvalid : n.isValidChar
    · rw [hn, Char.ofNat, dif_pos hvalid]
      rfl
    · rw [hn, Char.ofNat, dif_neg hvalid] at hzero
      exact absurd rfl hzero
  have hshifted (hd : d ∈ [Char.ofNat (Table.shifted shifts c.toNat)]) :
      c = d ∨ ∃ shift ∈ shifts, Int.ofNat shift.run.first + shift.offset ≤ d.toNat ∧
        d.toNat ≤ Int.ofNat shift.run.last + shift.offset := by
    have hn := hcode (List.mem_singleton.mp hd)
    obtain hsame | ⟨shift, hshift, hfirst, hlast, himage⟩ :=
      Table.shifted_cases shifts c.toNat
    · rw [hsame] at hn
      exact Or.inl (Char.toNat_inj.mp hn)
    · refine Or.inr ⟨shift, hshift, ?_⟩
      simp only [Int.ofNat_eq_natCast] at himage ⊢
      omega
  unfold mapCase at h
  split at h
  · exact (hshifted h).imp_right Or.inl
  · split at h
    next images himages =>
      obtain ⟨before, after, heq, _⟩ := List.lookup_eq_some_iff.mp himages
      obtain ⟨image, hmem, hd⟩ := List.mem_map.mp h
      exact Or.inr (Or.inr ⟨(c.toNat, images), heq ▸ by simp, hcode hd.symm ▸ hmem⟩)
    next => exact (hshifted h).imp_right Or.inl

/-- A character that no table has as an image is the image of no character but itself. -/
theorem eq_of_mem_mapCase (hzero : d.toNat ≠ 0)
    (hshifts : ∀ shift ∈ shifts, (d.toNat : Int) < Int.ofNat shift.run.first + shift.offset ∨
      Int.ofNat shift.run.last + shift.offset < d.toNat)
    (hexpansions : ∀ pair ∈ expansions, d.toNat ∉ pair.2)
    (h : d ∈ mapCase expansions shifts c) : c = d := by
  obtain heq | ⟨shift, hshift, hfirst, hlast⟩ | ⟨pair, hpair, himage⟩ := mem_mapCase_cases hzero h
  · exact heq
  · have hout := hshifts shift hshift
    omega
  · exact absurd himage (hexpansions pair hpair)

theorem mapCase_ne_nil (h : ∀ pair ∈ expansions, pair.2 ≠ []) (c : Char) :
    mapCase expansions shifts c ≠ [] := by
  unfold mapCase
  split
  · exact List.cons_ne_nil _ _
  · split
    next images himages =>
      obtain ⟨before, after, heq, _⟩ := List.lookup_eq_some_iff.mp himages
      have hne : images ≠ [] := h (c.toNat, images) (heq ▸ by simp)
      exact fun hnil ↦ hne (List.map_eq_nil_iff.mp hnil)
    next => exact List.cons_ne_nil _ _

end MapCase

/-! ### Upper case of characters -/

set_option maxRecDepth 2000 in
/-- A character before the letters is the upper case of no character but itself. -/
theorem eq_of_mem_upperChar {c d : Char} (hzero : d.toNat ≠ 0) (hletter : d.toNat < 65)
    (h : d ∈ upperChar c) : c = d := by
  have hshifts : ∀ shift ∈ Table.upperShifts, 65 ≤ Int.ofNat shift.run.first + shift.offset := by
    decide
  have hexpansions : ∀ pair ∈ Table.upperExpansions, ∀ image ∈ pair.2, 65 ≤ image := by
    decide
  refine eq_of_mem_mapCase hzero (fun shift hshift ↦ Or.inl ?_) (fun pair hpair himage ↦ ?_) h
  · have hbound := hshifts shift hshift
    omega
  · have hbound := hexpansions pair hpair _ himage
    omega

/-- White space is the upper case of nothing but white space. -/
theorem isBlank_of_mem_upperChar {c d : Char} (hc : isBlank c = false) (h : d ∈ upperChar c) :
    isBlank d = false := by
  refine Bool.eq_false_iff.mpr fun hd ↦ ?_
  obtain ⟨run, hrun, hfirst, hlast⟩ := Table.exists_run_of_contains hd
  have hrun : 0 < run.first ∧
      (∀ shift ∈ Table.upperShifts, Int.ofNat shift.run.last + shift.offset < run.first ∨
        run.last < Int.ofNat shift.run.first + shift.offset) ∧
      ∀ pair ∈ Table.upperExpansions, ∀ image ∈ pair.2, image < run.first ∨ run.last < image := by
    clear hfirst hlast
    revert run
    decide +kernel
  obtain ⟨hpos, hshifts, hexpansions⟩ := hrun
  obtain rfl | ⟨shift, hshift, hlow, hhigh⟩ | ⟨pair, hpair, himage⟩ :=
    mem_mapCase_cases (by omega) h
  · rw [hc] at hd
    cases hd
  · have hout := hshifts shift hshift
    omega
  · have hout := hexpansions pair hpair _ himage
    omega

theorem upperChar_ne_nil (c : Char) : upperChar c ≠ [] :=
  mapCase_ne_nil (by decide) c

/-! ### Lower case of characters -/

set_option maxRecDepth 2000 in
/-- A character before the letters is the lower case of no character but itself. -/
theorem eq_of_mem_lowerChar {c d : Char} (hzero : d.toNat ≠ 0) (hletter : d.toNat < 65)
    (h : d ∈ lowerChar c) : c = d := by
  have hshifts : ∀ shift ∈ Table.lowerShifts, 65 ≤ Int.ofNat shift.run.first + shift.offset := by
    decide
  have hexpansions : ∀ pair ∈ Table.lowerExpansions, ∀ image ∈ pair.2, 65 ≤ image := by
    decide
  refine eq_of_mem_mapCase hzero (fun shift hshift ↦ Or.inl ?_) (fun pair hpair himage ↦ ?_) h
  · have hbound := hshifts shift hshift
    omega
  · have hbound := hexpansions pair hpair _ himage
    omega

theorem lowerChar_ne_nil (c : Char) : lowerChar c ≠ [] :=
  mapCase_ne_nil (by decide) c

/-- A character before the letters stays itself in lower case. -/
theorem lowerChar_eq_self {c : Char} (h : c.toNat < 65) : lowerChar c = [c] := by
  have hshifted : ∀ n < 65, Table.shifted Table.lowerShifts n = n := by decide
  rw [lowerChar, mapCase, if_pos (by omega), hshifted _ h, Char.ofNat_toNat]

/-! ### Lower case of texts -/

/-- No case is looked for behind a space. -/
theorem reachesCased_append_space (cs ds : List Char) :
    reachesCased (cs ++ ' ' :: ds) = reachesCased cs := by
  have hignorable : isCaseIgnorable ' ' = false := by decide
  have hcased : isCased ' ' = false := by decide
  unfold reachesCased
  rw [List.dropWhile_append]
  cases hrest : cs.dropWhile isCaseIgnorable with
  | nil =>
    rw [List.isEmpty_nil, if_pos rfl, List.dropWhile_cons_of_neg (by simp [hignorable])]
    exact hcased
  | cons c rest => rfl

theorem lowerFrom_past_space (cs front before : List Char) :
    lowerFrom (front ++ ' ' :: before) cs = lowerFrom front cs := by
  induction cs generalizing front with
  | nil => rfl
  | cons c rest ih =>
    have hrest := ih (c :: front)
    rw [List.cons_append] at hrest
    rw [lowerFrom, lowerFrom, reachesCased_append_space, hrest]

theorem lowerFrom_append_space (before cs ds : List Char) :
    lowerFrom before (cs ++ ' ' :: ds) = lowerFrom before cs ++ ' ' :: lowerFrom [] ds := by
  induction cs generalizing before with
  | nil =>
    have hpast : lowerFrom (' ' :: before) ds = lowerFrom [] ds := lowerFrom_past_space ds [] before
    have hspace : lowerChar ' ' = [' '] := lowerChar_eq_self (by decide)
    rw [List.nil_append, lowerFrom.eq_2, hpast, hspace]
    rfl
  | cons c rest ih =>
    rw [List.cons_append, lowerFrom, lowerFrom, reachesCased_append_space, ih, List.append_assoc]

/-- The parts between single spaces are put in lower case one by one. -/
theorem lowerFrom_join (parts : List (List Char)) :
    lowerFrom [] (Chars.join [' '] parts) = Chars.join [' '] (parts.map (lowerFrom [])) := by
  induction parts with
  | nil => rfl
  | cons part rest ih =>
    cases rest with
    | nil => simp
    | cons next others =>
      rw [List.map_cons] at ih
      rw [Chars.join_cons_cons, List.append_assoc, List.singleton_append, lowerFrom_append_space,
        ih, List.map_cons, List.map_cons, Chars.join_cons_cons, List.append_assoc,
        List.singleton_append]

/-- A text of characters before the letters is in lower case. -/
theorem lowerFrom_eq_self {cs : List Char} (h : ∀ c ∈ cs, c.toNat < 65) (before : List Char) :
    lowerFrom before cs = cs := by
  induction cs generalizing before with
  | nil => rfl
  | cons c rest ih =>
    obtain ⟨hc, hrest⟩ := List.forall_mem_cons.mp h
    have hsigma : (c == 'Σ') = false := by
      refine beq_eq_false_iff_ne.mpr ?_
      rintro rfl
      exact absurd hc (by decide)
    rw [lowerFrom, hsigma, ih hrest, lowerChar_eq_self hc]
    rfl

theorem lowerFrom_ne_nil {cs : List Char} (h : cs ≠ []) (before : List Char) :
    lowerFrom before cs ≠ [] := by
  obtain ⟨c, rest, rfl⟩ := List.exists_cons_of_ne_nil h
  rw [lowerFrom]
  refine List.append_ne_nil_of_left_ne_nil ?_ _
  split
  · split <;> exact List.cons_ne_nil _ _
  · exact lowerChar_ne_nil c

/-- A text in lower case holds no space that the text does not hold. -/
theorem space_notMem_lowerFrom {cs : List Char} (h : ' ' ∉ cs) (before : List Char) :
    ' ' ∉ lowerFrom before cs := by
  induction cs generalizing before with
  | nil => exact List.not_mem_nil
  | cons c rest ih =>
    rw [List.mem_cons, not_or] at h
    rw [lowerFrom, List.mem_append, not_or]
    refine ⟨?_, ih h.2 _⟩
    split
    · split <;> decide
    · exact fun hspace ↦ h.1 (eq_of_mem_lowerChar (by decide) (by decide) hspace).symm

end SuiteMigration.Text

namespace SuiteMigration.Keyword

open SuiteMigration.Text

/-! ### Titles -/

/-- A character before the letters is in a title only as the space between words, or from a word. -/
theorem mem_titleChars_cases {cs : List Char} {c : Char} (h : c ∈ titleChars cs)
    (hzero : c.toNat ≠ 0) (hletter : c.toNat < 65) : c = ' ' ∨ c ∈ cs ∧ isBlank c = false := by
  obtain hc | ⟨part, hpart, hc⟩ := Chars.mem_join h
  · exact Or.inl (List.mem_singleton.mp hc)
  · obtain ⟨word, hword, rfl⟩ := List.mem_map.mp hpart
    refine Or.inr (Chars.mem_of_mem_words hword ?_)
    cases word with
    | nil => cases hc
    | cons d rest =>
      obtain hc | hc := List.mem_append.mp hc
      · rw [eq_of_mem_upperChar hzero hletter hc]
        exact List.mem_cons_self
      · exact List.mem_cons_of_mem _ hc

/-- A character that is its own upper case stays in the title. -/
theorem mem_titleChars {cs : List Char} {c : Char} (hc : c ∈ cs) (hblank : isBlank c = false)
    (hupper : c ∈ upperChar c) : c ∈ titleChars cs := by
  obtain ⟨word, hword, hmem⟩ := Chars.exists_mem_words hc hblank
  refine Chars.mem_join_of_mem (List.mem_map_of_mem hword) ?_ [' ']
  cases word with
  | nil => cases hmem
  | cons d rest =>
    obtain rfl | hmem := List.mem_cons.mp hmem
    · exact List.mem_append_left _ hupper
    · exact List.mem_append_right _ hmem

theorem oneLine_titleChars (cs : List Char) : Chars.OneLine (titleChars cs) := by
  intro c hc
  refine ⟨?_, ?_⟩
  · rintro rfl
    obtain heq | ⟨_, hblank⟩ := mem_titleChars_cases hc (by decide) (by decide)
    · cases heq
    · cases hblank
  · rintro rfl
    obtain heq | ⟨_, hblank⟩ := mem_titleChars_cases hc (by decide) (by decide)
    · cases heq
    · cases hblank

/-- A title does not start with white space. -/
theorem isBlank_of_head?_titleChars {cs : List Char} :
    ∀ c ∈ (titleChars cs).head?, isBlank c = false := by
  intro c hc
  rw [titleChars] at hc
  cases hwords : Chars.words cs with
  | nil =>
    rw [hwords] at hc
    cases hc
  | cons word others =>
    have hmem : word ∈ Chars.words cs := hwords ▸ List.mem_cons_self
    obtain ⟨first, rest, rfl⟩ := List.exists_cons_of_ne_nil (Chars.ne_nil_of_mem_words hmem)
    obtain ⟨image, images, himage⟩ := List.exists_cons_of_ne_nil (upperChar_ne_nil first)
    have hfirst := (Chars.mem_of_mem_words hmem List.mem_cons_self).2
    have heq : image = c := by
      rw [hwords, List.map_cons, capitalize, himage] at hc
      cases others <;> simpa using hc
    exact isBlank_of_mem_upperChar hfirst (himage ▸ heq ▸ List.mem_cons_self)

end SuiteMigration.Keyword
