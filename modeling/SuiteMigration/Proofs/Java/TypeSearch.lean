import SuiteMigration.Proofs.Java.Declaration
import SuiteMigration.Proofs.Java.Uncommented

/-!
The search for the first type declaration of a source. A declaration is plain code: a keyword, white
space and a name. If it starts in code it is the same with comments and without. The search itself
does not look at regions, though, so it also takes a declaration that starts inside a comment or a
literal, and it misses one that has a comment inside.
-/

set_option autoImplicit false
set_option relaxedAutoImplicit false

namespace SuiteMigration.Java

open SuiteMigration.Text

/-! ### Declarations -/

/-- A text that does not go on with a word. -/
def EndsWord (tail : List Char) : Prop :=
  ∀ c ∈ tail.head?, isWordChar c = false

/-- The name of a type. -/
def IsTypeName (name : List Char) : Prop :=
  ∃ c rest, name = c :: rest ∧ isIdentifierStart c = true ∧ ∀ d ∈ rest, isWordChar d = true

theorem identifier?_eq_some {cs name after : List Char} (h : identifier? cs = some (name, after)) :
    cs = name ++ after ∧ IsTypeName name ∧ EndsWord after := by
  unfold identifier? at h
  split at h
  next c rest =>
    split at h
    next hstart =>
      obtain ⟨rfl, rfl⟩ := Prod.mk.inj (Option.some.inj h)
      refine ⟨?_, ⟨c, _, rfl, hstart, fun d hd ↦ List.mem_takeWhile_imp hd⟩, fun d hd ↦ ?_⟩
      · rw [List.cons_append, List.takeWhile_append_dropWhile]
      · have hhead := List.head?_dropWhile_not isWordChar rest
        rwa [Option.mem_def.mp hd] at hhead
    next => cases h
  next => cases h

theorem identifier?_append {name tail : List Char} (hname : IsTypeName name)
    (htail : EndsWord tail) : identifier? (name ++ tail) = some (name, tail) := by
  obtain ⟨c, rest, rfl, hstart, hrest⟩ := hname
  have hspan : tail.takeWhile isWordChar = [] ∧ tail.dropWhile isWordChar = tail := by
    cases tail with
    | nil => exact ⟨rfl, rfl⟩
    | cons d more => simp [htail d rfl]
  rw [List.cons_append, identifier?, if_pos hstart, List.takeWhile_append_of_pos hrest,
    List.dropWhile_append_of_pos hrest, hspan.1, hspan.2, List.append_nil]

theorem skipBlanks?_eq_some {cs rest : List Char} (h : skipBlanks? cs = some rest) :
    ∃ blanks, cs = blanks ++ rest ∧ blanks ≠ [] ∧ ∀ c ∈ blanks, isBlank c = true := by
  unfold skipBlanks? at h
  split at h
  next c more =>
    split at h
    next hc =>
      cases h
      refine ⟨c :: more.takeWhile isBlank, ?_, List.cons_ne_nil _ _, ?_⟩
      · rw [Chars.trimStart, List.cons_append, List.takeWhile_append_dropWhile]
      · exact List.forall_mem_cons.mpr ⟨hc, fun d hd ↦ List.mem_takeWhile_imp hd⟩
    next => cases h
  next => cases h

theorem skipBlanks?_append {blanks rest : List Char} {c : Char} (hne : blanks ≠ [])
    (hblanks : ∀ d ∈ blanks, isBlank d = true) (hc : isBlank c = false) :
    skipBlanks? (blanks ++ c :: rest) = some (c :: rest) := by
  cases blanks with
  | nil => exact absurd rfl hne
  | cons d more =>
    obtain ⟨hd, hmore⟩ := List.forall_mem_cons.mp hblanks
    rw [List.cons_append, skipBlanks?, if_pos hd, Chars.trimStart,
      (Chars.span_append hmore hc rest).2]

def typeKeywords : List String :=
  ["class", "enum", "interface", "record"]

/-- The keywords start with different letters, so a text that starts with one of them starts with no
other. -/
theorem afterStart?_other_keyword {keyword other : String} (hkeyword : keyword ∈ typeKeywords)
    (hother : other ∈ typeKeywords) (hne : other ≠ keyword) (rest : List Char) :
    Chars.afterStart? other.toList (keyword.toList ++ rest) = none := by
  simp only [typeKeywords, List.mem_cons, List.not_mem_nil, or_false] at hkeyword hother
  rcases hkeyword with rfl | rfl | rfl | rfl <;> rcases hother with rfl | rfl | rfl | rfl <;>
    first | exact absurd rfl hne | rfl

/-- A text that starts with a keyword is read with that keyword. -/
theorem typeDeclaration?_keyword {keyword : String} (h : keyword ∈ typeKeywords)
    (rest : List Char) :
    typeDeclaration? (keyword.toList ++ rest) = (skipBlanks? rest).bind identifier? := by
  cases hread : (skipBlanks? rest).bind identifier? with
  | none =>
    refine List.findSome?_eq_none_iff.mpr fun other hother ↦ ?_
    by_cases heq : other = keyword
    · rw [heq, Chars.afterStart?_append]
      exact hread
    · rw [afterStart?_other_keyword h hother heq]
      rfl
  | some found =>
    obtain ⟨front, back, hsplit, hfirst⟩ := List.eq_append_cons_of_mem h
    refine List.findSome?_eq_some_iff.mpr ⟨front, keyword, back, hsplit, ?_, fun other hother ↦ ?_⟩
    · rw [Chars.afterStart?_append]
      exact hread
    · have hmem : other ∈ typeKeywords := hsplit ▸ List.mem_append_left _ hother
      rw [afterStart?_other_keyword h hmem (fun heq ↦ hfirst (heq ▸ hother))]
      rfl

theorem typeDeclaration?_cons {c : Char} (hc : c ∉ ['c', 'e', 'i', 'r']) (rest : List Char) :
    typeDeclaration? (c :: rest) = none := by
  cases h : typeDeclaration? (c :: rest) with
  | none => rfl
  | some found =>
    obtain ⟨keyword, hkeyword, hdeclared⟩ := List.exists_of_findSome?_eq_some h
    obtain ⟨more, hmore, _⟩ := Option.bind_eq_some_iff.mp hdeclared
    have hhead := congrArg List.head? (Chars.eq_append_of_afterStart? hmore)
    refine absurd ?_ hc
    simp only [List.mem_cons, List.not_mem_nil, or_false] at hkeyword
    rcases hkeyword with rfl | rfl | rfl | rfl <;> simp at hhead <;> simp [hhead]

/-- A type declaration that is read in the same way before any text. -/
structure IsDeclaration (declaration name : List Char) : Prop where
  plain : declaration.all isPlain = true
  read : ∀ tail, EndsWord tail → typeDeclaration? (declaration ++ tail) = some (name, tail)

theorem isPlain_of_class {p : Char → Bool} (hother : ['/', '"', '\x27'].all (!p ·) = true)
    {c : Char} (h : p c = true) : isPlain c = true := by
  have hne : ∀ d ∈ ['/', '"', '\x27'], c ≠ d := by
    rintro d hd rfl
    simpa [h] using List.all_eq_true.mp hother c hd
  simp [isPlain, hne]

theorem exists_isDeclaration {cs name after : List Char}
    (h : typeDeclaration? cs = some (name, after)) :
    ∃ declaration, IsDeclaration declaration name ∧ cs = declaration ++ after ∧ EndsWord after := by
  obtain ⟨keyword, hkeyword, hdeclared⟩ := List.exists_of_findSome?_eq_some h
  obtain ⟨rest, hrest, hspaced⟩ := Option.bind_eq_some_iff.mp hdeclared
  obtain ⟨more, hmore, hread⟩ := Option.bind_eq_some_iff.mp hspaced
  obtain rfl := Chars.eq_append_of_afterStart? hrest
  obtain ⟨blanks, rfl, hne, hblanks⟩ := skipBlanks?_eq_some hmore
  obtain ⟨rfl, hname, hafter⟩ := identifier?_eq_some hread
  obtain ⟨c, word, rfl, hstart, hword⟩ := hname
  have hc := nameClasses (c := c) (by rw [isIdentifierChar, hstart]; rfl)
  refine ⟨keyword.toList ++ blanks ++ c :: word, ⟨?_, fun tail htail ↦ ?_⟩, by simp, hafter⟩
  · have hletters : ∀ keyword ∈ typeKeywords, keyword.toList.all isPlain = true := by decide
    rw [List.all_append, List.all_append, hletters keyword hkeyword, List.all_cons, hc.plain]
    simp only [Bool.true_and, Bool.and_eq_true, List.all_eq_true]
    exact ⟨fun d hd ↦ isPlain_of_class (by decide) (hblanks d hd),
      fun d hd ↦ isPlain_of_class (by decide) (hword d hd)⟩
  · rw [List.append_assoc, List.append_assoc, typeDeclaration?_keyword hkeyword, List.cons_append,
      skipBlanks?_append hne hblanks hc.visible]
    exact identifier?_append ⟨c, word, rfl, hstart, hword⟩ htail

/-- A declaration that starts in code is code. -/
theorem exists_codeMarks {cs : List Char} {front back : List Mark} {mark : Mark}
    (hmarks : marks cs = front ++ mark :: back) (hkind : mark.kind = .code)
    {name after : List Char} (h : typeDeclaration? (textOf (mark :: back)) = some (name, after)) :
    ∃ declaration, IsDeclaration declaration name ∧ EndsWord after ∧
      mark :: back = codeMarks declaration ++ marks after := by
  obtain ⟨declaration, hdeclaration, htext, hafter⟩ := exists_isDeclaration h
  refine ⟨declaration, hdeclaration, hafter, ?_⟩
  have hne : declaration ≠ [] := by
    rintro rfl
    cases hdeclaration.read [] nofun
  obtain ⟨c, rest, rfl⟩ := List.exists_cons_of_ne_nil hne
  obtain ⟨d, kind⟩ := mark
  obtain rfl : kind = .code := hkind
  obtain ⟨rfl, -⟩ : d = c ∧ _ := List.cons.inj htext
  have hplain : [d].all isPlain = true := by
    have hall := hdeclaration.plain
    rw [List.all_cons, Bool.and_eq_true] at hall
    simpa using hall.1
  calc
    ⟨d, .code⟩ :: back = codeMarks [d] ++ marks (textOf back) := by
      rw [(marksFrom_split hmarks).2]
      rfl
    _ = marks (textOf (⟨d, .code⟩ :: back)) := ((lexes_plain hplain).marks_eq _).symm
    _ = codeMarks (d :: rest) ++ marks after := by
      rw [htext, (lexes_plain hdeclaration.plain).marks_eq]

/-- What is left of a comment is white space, which ends a word. -/
theorem EndsWord.uncommented {after : List Char} (h : EndsWord after) :
    EndsWord (textOf (uncommented (marks after))) := by
  intro c hc
  refine Bool.eq_false_iff.mpr fun hword ↦ ?_
  have hblank : isWordChar ' ' = false ∧ isWordChar '\n' = false := by decide
  have hstart : [c] <+: textOf (Java.uncommented (marks after)) := by
    obtain ⟨tail, htail⟩ := List.head?_eq_some_iff.mp hc
    exact ⟨tail, htail.symm⟩
  have hspace : ' ' ∉ [c] := by
    rw [List.mem_singleton]
    rintro rfl
    exact absurd hword (Bool.eq_false_iff.mp hblank.1)
  have hfeed : '\n' ∉ [c] := by
    rw [List.mem_singleton]
    rintro rfl
    exact absurd hword (Bool.eq_false_iff.mp hblank.2)
  obtain ⟨more, hmore⟩ := (prefix_of_uncommented hspace hfeed hstart).1
  rw [h c (by rw [← hmore]; rfl)] at hword
  cases hword

/-! ### The search -/

section FindType

variable {before : Option Char} {c : Char} {rest : List Char}

theorem findType?_of_isSome (hstart : atWordStart before = true)
    (h : (typeDeclaration? (c :: rest)).isSome = true) :
    findType? before (c :: rest) = typeDeclaration? (c :: rest) := by
  obtain ⟨found, hfound⟩ := Option.isSome_iff_exists.mp h
  rw [findType?, if_pos hstart, hfound]

theorem findType?_of_none
    (h : atWordStart before = true → typeDeclaration? (c :: rest) = none) :
    findType? before (c :: rest) = findType? (some c) rest := by
  rw [findType?]
  by_cases hstart : atWordStart before = true
  · rw [if_pos hstart, h hstart]
  · rw [if_neg hstart]

end FindType

/-- What the search finds is declared somewhere in the text. -/
theorem exists_of_findType? {before : Option Char} {ms : List Mark} {found : List Char × List Char}
    (h : findType? before (textOf ms) = some found) :
    ∃ front mark back, ms = front ++ mark :: back ∧
      typeDeclaration? (textOf (mark :: back)) = some found := by
  induction ms generalizing before with
  | nil => cases h
  | cons mark rest ih =>
    by_cases hhere : atWordStart before = true ∧
        (typeDeclaration? (textOf (mark :: rest))).isSome = true
    · refine ⟨[], mark, rest, rfl, ?_⟩
      rw [← h]
      exact (findType?_of_isSome hhere.1 hhere.2).symm
    · have hpassed := findType?_of_none (by simpa using hhere)
      obtain ⟨front, here, back, rfl, hfound⟩ := ih (hpassed.symm.trans h)
      exact ⟨mark :: front, here, back, rfl, hfound⟩

/-- The type of a source is declared inside a comment or a literal. -/
def TypeOutsideCode (cs : List Char) : Prop :=
  ∃ front mark back, marks cs = front ++ mark :: back ∧ mark.kind ≠ .code ∧
    (typeDeclaration? (textOf (mark :: back))).isSome = true ∧
    findType? none cs = typeDeclaration? (textOf (mark :: back))

/-- A type is found in the code, or outside it. -/
theorem exists_append_of_findType? {cs name after : List Char}
    (h : findType? none cs = some (name, after)) :
    TypeOutsideCode cs ∨ ∃ front, marks cs = front ++ marks after := by
  have hfound : findType? none (textOf (marks cs)) = some (name, after) := by rwa [textOf_marks]
  obtain ⟨front, mark, back, hms, hhere⟩ := exists_of_findType? hfound
  by_cases hkind : mark.kind = .code
  · obtain ⟨declaration, _, _, hcode⟩ := exists_codeMarks hms hkind hhere
    rw [hcode, ← List.append_assoc] at hms
    exact Or.inr ⟨_, hms⟩
  · exact Or.inl ⟨front, mark, back, hms, hkind, by rw [hhere]; rfl, h.trans hhere.symm⟩

/-! ### Neighbours -/

/-- A mark before one that is kept is kept as well, and ends a word just as before. -/
def Precedes (mark next : Mark) : Prop :=
  next.kind = .code ∨ next.kind = .literal →
    mark.uncommented?.map (fun kept ↦ isWordChar kept.char) = some (isWordChar mark.char)

theorem precedes_of_kept {mark next : Mark} (h : mark.kind = .code ∨ mark.kind = .literal) :
    Precedes mark next := by
  intro
  rcases h with hkind | hkind <;> simp [Mark.uncommented?, hkind]

/-- Inside a comment the next mark is one of the comment. -/
theorem kind_of_head?_comment {region : Region} (hregion : region.isComment = true)
    {cs : List Char} {mark : Mark} (h : mark ∈ (marksFrom true region cs).head?) :
    ¬(mark.kind = .code ∨ mark.kind = .literal) := by
  have hne : cs ≠ [] := by
    rintro rfl
    rw [marksFrom_nil] at h
    cases h
  obtain ⟨front, next, rest, hstep⟩ := exists_stepsTo region hne
  obtain ⟨first, more, rfl⟩ := List.exists_cons_of_ne_nil hstep.ne_nil
  rw [hstep.marksFrom_eq] at h
  cases h
  cases hstep.step with
  | code => cases hregion
  | literal hother => rw [hother] at hregion; cases hregion
  | comment _ _ hkinds => simp [hkinds mark List.mem_cons_self]
  | lineEnd => simp
  | blockEnd => simp

theorem isChain_marksFrom (region : Region) (cs : List Char) :
    (marksFrom true region cs).IsChain Precedes := by
  induction hlength : cs.length using Nat.strongRecOn generalizing region cs with
  | ind n ih =>
    by_cases hne : cs = []
    · subst hne
      rw [marksFrom_nil]
      exact .nil
    obtain ⟨front, next, rest, hstep⟩ := exists_stepsTo region hne
    rw [hstep.marksFrom_eq, List.isChain_append]
    refine ⟨?_, ih rest.length (hlength ▸ hstep.length_lt) next rest rfl, ?_⟩
    · cases hstep.step with
      | code | lineEnd => exact .singleton _
      | literal _ _ hkinds =>
        refine List.Pairwise.isChain (List.pairwise_of_forall_mem_list ?_)
        exact fun mark hmark _ _ ↦ precedes_of_kept (Or.inr (hkinds mark hmark))
      | comment _ _ hkinds =>
        refine List.Pairwise.isChain (List.pairwise_of_forall_mem_list ?_)
        intro mark _ other hother hkept
        simp [hkinds other hother] at hkept
      | blockEnd => exact .cons_cons (fun hkept ↦ by simp at hkept) (.singleton _)
    · intro mark hmark other hother
      cases hstep.step with
      | code => cases hmark; exact precedes_of_kept (Or.inl rfl)
      | literal _ _ hkinds =>
        exact precedes_of_kept (Or.inr (hkinds _ (List.mem_of_getLast? hmark)))
      | comment _ hafter _ => exact fun hkept ↦ absurd hkept (kind_of_head?_comment hafter hother)
      | lineEnd => cases hmark; exact fun _ ↦ rfl
      | blockEnd => cases hmark; exact fun _ ↦ by decide

/-! ### The search with comments and without -/

/-- How the search for a type ends on a text and on the text without comments, when `before` and
`before'` stand before them. -/
inductive TypeSearch (before before' : Option Char) (ms : List Mark) : Prop
  | absent (h : findType? before (textOf ms) = none)
      (h' : findType? before' (textOf (uncommented ms)) = none)
  | found (front after : List Mark) (name : List Char) (hms : ms = front ++ after)
      (hafter : Own after) (h : findType? before (textOf ms) = some (name, textOf after))
      (h' : findType? before' (textOf (uncommented ms)) = some (name, textOf (uncommented after)))
  | outsideCode (front back : List Mark) (mark : Mark) (hms : ms = front ++ mark :: back)
      (hkind : mark.kind ≠ .code) (hhere : (typeDeclaration? (textOf (mark :: back))).isSome = true)
      (h : findType? before (textOf ms) = typeDeclaration? (textOf (mark :: back)))
  | acrossComment (front back : List Mark) (mark : Mark) (hms : ms = front ++ mark :: back)
      (hhere : typeDeclaration? (textOf (mark :: back)) = none)
      (hhere' : (typeDeclaration? (textOf (uncommented (mark :: back)))).isSome = true)
      (h' : findType? before' (textOf (uncommented ms)) =
        typeDeclaration? (textOf (uncommented (mark :: back))))

theorem TypeSearch.cons {before before' next next' : Option Char} {mark : Mark} {rest : List Mark}
    (h : findType? before (textOf (mark :: rest)) = findType? next (textOf rest))
    (h' : findType? before' (textOf (uncommented (mark :: rest))) =
      findType? next' (textOf (uncommented rest)))
    (hrest : TypeSearch next next' rest) : TypeSearch before before' (mark :: rest) := by
  cases hrest with
  | absent hnone hnone' => exact .absent (h.trans hnone) (h'.trans hnone')
  | found front after name hms hafter hfound hfound' =>
    exact .found (mark :: front) after name (congrArg _ hms) hafter (h.trans hfound)
      (h'.trans hfound')
  | outsideCode front back here hms hkind hhere hfound =>
    exact .outsideCode (mark :: front) back here (congrArg _ hms) hkind hhere (h.trans hfound)
  | acrossComment front back here hms hhere hhere' hfound' =>
    exact .acrossComment (mark :: front) back here (congrArg _ hms) hhere hhere'
      (h'.trans hfound')

/-- A declaration that starts in code is found in both texts. -/
theorem typeSearch_of_code {cs : List Char} {front rest : List Mark} {mark : Mark}
    (hmarks : marks cs = front ++ mark :: rest) (hkind : mark.kind = .code)
    {before before' : Option Char} (hstart : atWordStart before = true)
    (hstart' : atWordStart before' = true)
    (h : (typeDeclaration? (textOf (mark :: rest))).isSome = true) :
    TypeSearch before before' (mark :: rest) := by
  obtain ⟨⟨name, after⟩, hfound⟩ := Option.isSome_iff_exists.mp h
  obtain ⟨declaration, hdeclaration, hafter, hms⟩ := exists_codeMarks hmarks hkind hfound
  refine .found _ (marks after) name hms (own_marks after) ?_ ?_
  · rw [textOf_marks]
    exact (findType?_of_isSome hstart h).trans hfound
  · have hkept : uncommented (codeMarks declaration) = codeMarks declaration := by
      refine uncommented_eq_self fun kept hmem ↦ Or.inl ?_
      obtain ⟨c, _, rfl⟩ := List.mem_map.mp hmem
      rfl
    have hfound' : typeDeclaration? (textOf (uncommented (mark :: rest))) =
        some (name, textOf (uncommented (marks after))) := by
      rw [hms, uncommented_append, hkept, textOf_append, textOf_codeMarks]
      exact hdeclaration.read _ hafter.uncommented
    obtain ⟨c, kind⟩ := mark
    obtain rfl : kind = .code := hkind
    rw [← hfound']
    exact findType?_of_isSome hstart' (Option.isSome_of_eq_some hfound')

/-- The search on a part of the marks of a source. Where a mark is kept next, words start at the
same places in both texts. -/
theorem typeSearch_of_append {cs : List Char} {front ms : List Mark}
    (hmarks : marks cs = front ++ ms) {before before' : Option Char}
    (hbefore : ∀ mark ∈ ms.head?, mark.kind = .code ∨ mark.kind = .literal →
      atWordStart before = atWordStart before') : TypeSearch before before' ms := by
  have hchain : ms.IsChain Precedes :=
    (hmarks ▸ isChain_marksFrom .code cs : (front ++ ms).IsChain Precedes).right_of_append
  induction ms generalizing front before before' with
  | nil => exact .absent rfl rfl
  | cons mark rest ih =>
    obtain ⟨hprecedes, hrest⟩ := List.isChain_cons.mp hchain
    have hsame := hbefore mark rfl
    have hsearch (next' : Option Char)
        (hnext : ∀ kept ∈ mark.uncommented?, next' = some kept.char) :
        TypeSearch (some mark.char) next' rest := by
      refine ih (hmarks.trans (List.append_cons _ _ _)) (fun next hnexthead hkept ↦ ?_) hrest
      obtain ⟨kept, hkept, hword⟩ := Option.map_eq_some_iff.mp (hprecedes next hnexthead hkept)
      rw [hnext kept hkept, atWordStart, atWordStart, hword]
    by_cases hhere : atWordStart before = true ∧
        (typeDeclaration? (textOf (mark :: rest))).isSome = true
    · by_cases hkind : mark.kind = .code
      · exact typeSearch_of_code hmarks hkind hhere.1 (hsame (Or.inl hkind) ▸ hhere.1) hhere.2
      · exact .outsideCode [] rest mark rfl hkind hhere.2 (findType?_of_isSome hhere.1 hhere.2)
    have hnone : atWordStart before = true → typeDeclaration? (textOf (mark :: rest)) = none := by
      simpa using hhere
    have hpassed := findType?_of_none hnone
    cases hmark : mark.uncommented? with
    | none =>
      refine .cons hpassed ?_ (hsearch before' (by simp [hmark]))
      rw [uncommented_cons, hmark]
      rfl
    | some kept =>
      have hkept : uncommented (mark :: rest) = kept :: uncommented rest := by
        rw [uncommented_cons, hmark]
        rfl
      by_cases hhere' : atWordStart before' = true ∧
          (typeDeclaration? (textOf (uncommented (mark :: rest)))).isSome = true
      · -- white space declares nothing, so the mark is kept as it is
        have hkind : mark.kind = .code ∨ mark.kind = .literal := by
          have hblank (hc : kept.char ∉ ['c', 'e', 'i', 'r']) : False := by
            rw [hkept, textOf_cons, typeDeclaration?_cons hc] at hhere'
            cases hhere'.2
          obtain ⟨c, kind⟩ := mark
          cases kind with
          | code => exact Or.inl rfl
          | literal => exact Or.inr rfl
          | comment => cases hmark
          | lineEnd | blockEnd => cases hmark; exact (hblank (by decide)).elim
        refine .acrossComment [] rest mark rfl (hnone ?_) hhere'.2 ?_
        · exact (hsame hkind).trans hhere'.1
        · rw [hkept] at hhere' ⊢
          exact findType?_of_isSome hhere'.1 hhere'.2
      · refine .cons hpassed ?_ (hsearch (some kept.char) (by simp [hmark]))
        rw [hkept] at hhere' ⊢
        exact findType?_of_none (by simpa [textOf] using hhere')

end SuiteMigration.Java
