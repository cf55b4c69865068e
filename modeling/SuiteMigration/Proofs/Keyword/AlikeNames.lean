import SuiteMigration.Proofs.Keyword.StepNames
import SuiteMigration.Proofs.Path.Segments
import SuiteMigration.Resource.PageObject
import SuiteMigration.Resource.Utility

/-!
Identifiers that lead to one name. The keyword name of an identifier is made of its words in title
case, and its constant name of its words in upper case. The words can be read back from either, but
not how they were told apart in the identifier, by an underscore or by a capital, nor which of their
letters were capitals. So two identifiers lead to one name exactly if they have the same words up to
case, and the names in a page object, a utility resource or a placeholder differ exactly if no two
of the identifiers do.
-/

set_option autoImplicit false
set_option relaxedAutoImplicit false

namespace SuiteMigration.Chars

open SuiteMigration.Text

/-- Parts that are not empty and do not hold the separator are read back from their join. -/
theorem filter_splitBy_join {c : Char} {parts : List (List Char)}
    (h : ∀ part ∈ parts, part ≠ [] ∧ c ∉ part) :
    (splitBy (· == c) (join [c] parts)).filter (fun part ↦ !part.isEmpty) = parts := by
  by_cases hne : parts = []
  · subst hne
    rfl
  · have hparts : ∀ part ∈ parts, ∀ d ∈ part, (d == c) = false := by
      intro part hpart d hd
      refine beq_eq_false_iff_ne.mpr ?_
      rintro rfl
      exact (h part hpart).2 hd
    rw [splitBy_join (p := (· == c)) (beq_self_eq_true c) hne hparts]
    exact List.filter_eq_self.mpr fun part hpart ↦ by simpa using (h part hpart).1

theorem join_injective {c : Char} {first second : List (List Char)}
    (hfirst : ∀ part ∈ first, part ≠ [] ∧ c ∉ part)
    (hsecond : ∀ part ∈ second, part ≠ [] ∧ c ∉ part) (h : join [c] first = join [c] second) :
    first = second := by
  rw [← filter_splitBy_join hfirst, h, filter_splitBy_join hsecond]

end SuiteMigration.Chars

namespace SuiteMigration.Keyword

open SuiteMigration.Text SuiteMigration.Chars SuiteMigration.Robot

/-! ### Words of an identifier -/

theorem ne_nil_of_mem_identifierWordsFrom {current cs word : List Char} {before : Char}
    (h : word ∈ identifierWordsFrom current before cs) : word ≠ [] := by
  have hreverse {current : List Char} (hne : ¬ current.isEmpty = true) : current.reverse ≠ [] := by
    simpa using hne
  fun_induction identifierWordsFrom current before cs with
  | case1 => cases h
  | case2 current before hne =>
    rw [List.mem_singleton.mp h]
    exact hreverse hne
  | case3 current before c rest hc hempty ih => exact ih h
  | case4 current before c rest hc hne ih =>
    obtain rfl | h := List.mem_cons.mp h
    · exact hreverse hne
    · exact ih h
  | case5 current before c rest hc hstarts ih =>
    obtain rfl | h := List.mem_cons.mp h
    · exact hreverse (by simp_all)
    · exact ih h
  | case6 current before c rest hc hstarts ih => exact ih h

/-- A text that is one word: it is not empty, and no character of it separates words. -/
structure IsWord (text : String) : Prop where
  ne_nil : text.toList ≠ []
  joined : ∀ c ∈ text.toList, separatesWords c = false

theorem isWord_of_mem_identifierWords {name word : String} (h : word ∈ identifierWords name) :
    IsWord word := by
  refine ⟨?_, separatesWords_of_mem_identifierWords h⟩
  obtain ⟨cs, hcs, rfl⟩ := List.mem_map.mp h
  rw [String.toList_ofList]
  exact ne_nil_of_mem_identifierWordsFrom hcs

section Word

variable {word : String}

theorem IsWord.isBlank (h : IsWord word) : ∀ c ∈ word.toList, isBlank c = false := by
  intro c hc
  have hseparates := h.joined c hc
  simp only [separatesWords, Bool.or_eq_false_iff] at hseparates
  exact hseparates.2

theorem IsWord.words_eq (h : IsWord word) : Chars.words word.toList = [word.toList] :=
  words_word h.ne_nil h.isBlank

theorem IsWord.notMem (h : IsWord word) {c : Char} (hc : separatesWords c = true) :
    c ∉ word.toList := by
  intro hmem
  rw [h.joined c hmem] at hc
  cases hc

theorem IsWord.titleChars_eq (h : IsWord word) :
    titleChars word.toList = capitalize word.toList := by
  rw [titleChars, h.words_eq, List.map_singleton, join_singleton]

/-- A word in title case is still one word of lower case. -/
theorem IsWord.lower_title (h : IsWord word) :
    (toLower (titleCase word)).toList ≠ [] ∧ ' ' ∉ (toLower (titleCase word)).toList := by
  obtain ⟨c, rest, hword⟩ := List.exists_cons_of_ne_nil h.ne_nil
  have hspace := h.notMem (c := ' ') (by decide)
  rw [hword, List.mem_cons, not_or] at hspace
  rw [toLower, titleCase, String.toList_ofList, String.toList_ofList, h.titleChars_eq, hword,
    capitalize]
  refine ⟨lowerFrom_ne_nil (List.append_ne_nil_of_left_ne_nil (upperChar_ne_nil c) rest) [], ?_⟩
  refine space_notMem_lowerFrom ?_ []
  rw [List.mem_append, not_or]
  exact ⟨fun hmem ↦ hspace.1 (eq_of_mem_upperChar (by decide) (by decide) hmem).symm, hspace.2⟩

/-- An underscore is the upper case of no character but itself. -/
theorem IsWord.upper (h : IsWord word) :
    (toUpper word).toList ≠ [] ∧ '_' ∉ (toUpper word).toList := by
  obtain ⟨c, rest, hword⟩ := List.exists_cons_of_ne_nil h.ne_nil
  rw [toUpper, String.toList_ofList]
  refine ⟨?_, fun hmem ↦ ?_⟩
  · rw [hword, List.flatMap_cons]
    exact List.append_ne_nil_of_left_ne_nil (upperChar_ne_nil c) _
  · obtain ⟨d, hd, hmem⟩ := List.mem_flatMap.mp hmem
    have heq : d = '_' :=
      eq_of_mem_mapCase (by decide) (by decide +kernel) (by decide +kernel) hmem
    exact h.notMem (c := '_') (by decide) (heq ▸ hd)

end Word

/-! ### Names of identifiers -/

/-- Two identifiers have the same words in title case, up to case. -/
def SameTitle (a b : String) : Prop :=
  (identifierWords a).map (fun word ↦ toLower (titleCase word)) =
    (identifierWords b).map fun word ↦ toLower (titleCase word)

/-- Two identifiers have the same words in upper case. -/
def SameConstant (a b : String) : Prop :=
  (identifierWords a).map toUpper = (identifierWords b).map toUpper

instance (a b : String) : Decidable (SameTitle a b) :=
  inferInstanceAs (Decidable (_ = _))

instance (a b : String) : Decidable (SameConstant a b) :=
  inferInstanceAs (Decidable (_ = _))

theorem titleChars_join {words : List String} (h : ∀ word ∈ words, IsWord word) :
    titleChars (join [' '] (words.map String.toList)) =
      join [' '] (words.map fun word ↦ titleChars word.toList) := by
  have hwords : Chars.words (join [' '] (words.map String.toList)) = words.map String.toList := by
    rw [words_join, List.flatMap_map]
    induction words with
    | nil => rfl
    | cons word rest ih =>
      obtain ⟨hword, hrest⟩ := List.forall_mem_cons.mp h
      rw [List.flatMap_cons, hword.words_eq, ih hrest]
      rfl
  rw [titleChars, hwords, List.map_map]
  refine congrArg (join [' ']) (List.map_congr_left fun word hword ↦ ?_)
  exact (h word hword).titleChars_eq.symm

/-- In lower case a keyword name is made of the words of the identifier one by one. -/
theorem toLower_ofIdentifier (name : String) :
    (toLower (ofIdentifier name)).toList =
      join [' '] (((identifierWords name).map fun word ↦ toLower (titleCase word)).map
        String.toList) := by
  have htitles := titleChars_join fun _ (hword : _ ∈ identifierWords name) ↦
    isWord_of_mem_identifierWords hword
  have hspace : " ".toList = [' '] := rfl
  rw [toLower, ofIdentifier, titleCase, String.toList_ofList, String.toList_ofList,
    String.toList_intercalate, ← Chars.join, hspace, htitles, lowerFrom_join, List.map_map,
    List.map_map]
  refine congrArg (join [' ']) (List.map_congr_left fun word _ ↦ ?_)
  simp [toLower, titleCase]

theorem toLower_ofIdentifier_eq_iff {a b : String} :
    toLower (ofIdentifier a) = toLower (ofIdentifier b) ↔ SameTitle a b := by
  have hparts (name : String) : ∀ part ∈ ((identifierWords name).map fun word ↦
      toLower (titleCase word)).map String.toList, part ≠ [] ∧ ' ' ∉ part := by
    intro part hpart
    rw [List.map_map] at hpart
    obtain ⟨word, hword, rfl⟩ := List.mem_map.mp hpart
    exact (isWord_of_mem_identifierWords hword).lower_title
  rw [← String.toList_inj, toLower_ofIdentifier, toLower_ofIdentifier]
  constructor
  · intro h
    exact List.map_injective_iff.mpr (fun _ _ ↦ String.toList_inj.mp)
      (join_injective (hparts a) (hparts b) h)
  · intro h
    rw [h]

theorem constant_eq_iff {a b : String} : constant a = constant b ↔ SameConstant a b := by
  have hparts (name : String) : ∀ part ∈ ((identifierWords name).map toUpper).map String.toList,
      part ≠ [] ∧ '_' ∉ part := by
    intro part hpart
    rw [List.map_map] at hpart
    obtain ⟨word, hword, rfl⟩ := List.mem_map.mp hpart
    exact (isWord_of_mem_identifierWords hword).upper
  constructor
  · intro h
    rw [← String.toList_inj, constant, constant, String.toList_intercalate,
      String.toList_intercalate] at h
    exact List.map_injective_iff.mpr (fun _ _ ↦ String.toList_inj.mp)
      (join_injective (hparts a) (hparts b) h)
  · intro h
    rw [constant, constant, h]

theorem nodup_map_ofIdentifier_iff (names : List String) :
    (names.map fun name ↦ toLower (ofIdentifier name)).Nodup ↔
      names.Pairwise fun a b ↦ ¬ SameTitle a b := by
  rw [List.Nodup, List.pairwise_map]
  exact ⟨List.Pairwise.imp (mt toLower_ofIdentifier_eq_iff.mpr),
    List.Pairwise.imp (mt toLower_ofIdentifier_eq_iff.mp)⟩

theorem nodup_map_constant_iff (names : List String) :
    (names.map constant).Nodup ↔ names.Pairwise fun a b ↦ ¬ SameConstant a b := by
  rw [List.Nodup, List.pairwise_map]
  exact ⟨List.Pairwise.imp (mt constant_eq_iff.mpr), List.Pairwise.imp (mt constant_eq_iff.mp)⟩

end SuiteMigration.Keyword

namespace SuiteMigration

open SuiteMigration.Text SuiteMigration.Java SuiteMigration.Robot SuiteMigration.Keyword

/-! ### Identifiers of a source -/

theorem nodup_distinct (strings : List String) : (distinct strings).Nodup := by
  refine List.nodup_reverse.mpr (List.foldlRecOn strings _ List.nodup_nil fun seen h s _ ↦ ?_)
  split
  · exact h
  next hnew => exact List.nodup_cons.mpr ⟨by simpa using hnew, h⟩

/-- Of overloads one method is kept. -/
theorem nodup_pageMethods (o : Outline) : (o.pageMethods.map Method.name).Nodup := by
  unfold Outline.pageMethods
  refine List.foldlRecOn (motive := fun kept : List Method ↦ (kept.map Method.name).Nodup) _ _
    List.nodup_nil fun kept h m _ ↦ ?_
  split
  · exact h
  next hnew =>
    rw [List.map_append, List.map_singleton]
    refine List.nodup_append.mpr ⟨h, List.nodup_singleton _, ?_⟩
    simpa using hnew

/-! ### Names in a file -/

theorem name_elementVariable (d : ElementDeclaration) :
    (elementVariable d).name = constant d.name := by
  unfold elementVariable
  split <;> rfl

theorem namesDiffer_placeholderBlocks_iff (names : List String) (title remark : String) :
    NamesDiffer (placeholderBlocks (if names.isEmpty then [title] else names) remark) ↔
      names.Pairwise fun a b ↦ ¬ SameTitle a b := by
  rw [NamesDiffer, placeholderBlocks, List.map_map]
  refine (nodup_map_ofIdentifier_iff _).trans ?_
  split
  next hempty =>
    rw [List.isEmpty_iff.mp hempty]
    exact iff_of_true (List.pairwise_singleton _ _) List.Pairwise.nil
  next => rfl

theorem exists_outline {α : Type} {source : String} {view : Outline → α} {a : α}
    (h : (outline source).toOption.map view = some a) :
    ∃ o, outline source = .ok o ∧ view o = a := by
  cases ho : outline source with
  | error e =>
    rw [ho] at h
    cases h
  | ok o =>
    rw [ho] at h
    exact ⟨o, rfl, Option.some.inj h⟩

theorem exists_pageObjectResource {source : String} {o : Outline} (ho : outline source = .ok o)
    (hmethods : o.pageMethods ≠ []) (ctx : Context) :
    ∃ g, pageObjectResource source ctx = .ok (some g) := by
  have hsome : (o.pageMethods.isEmpty && (elementVariables o).isEmpty) = false := by
    rw [List.isEmpty_eq_false_iff.mpr hmethods, Bool.false_and]
  unfold pageObjectResource
  rw [ho]
  change ∃ g, (if (o.pageMethods.isEmpty && (elementVariables o).isEmpty) = true
    then pure none else pure (some _) : Except OutlineError (Option Generated)) = .ok (some g)
  rw [if_neg (Bool.eq_false_iff.mp hsome)]
  exact ⟨_, rfl⟩

/-- The keywords of a page object are named for its methods, its variables for its elements. -/
theorem names_of_pageObjectResource {source : String} {ctx : Context} {o : Outline} {g : Generated}
    (ho : outline source = .ok o) (hg : pageObjectResource source ctx = .ok (some g)) :
    g.file.keywords.map Block.name = (o.pageMethods.map Method.name).map ofIdentifier ∧
      g.file.declarations.map Variable.name =
        ((elementDeclarations o).map ElementDeclaration.name).map constant := by
  obtain ⟨outlined, houtlined, hg⟩ := exists_of_bind_eq_ok hg
  obtain rfl : outlined = o := Except.ok.inj (houtlined.symm.trans ho)
  dsimp only at hg
  split at hg
  · cases hg
  rw [← Option.some.inj (Except.ok.inj hg)]
  constructor
  · rw [List.map_map, List.map_map]
    rfl
  · rw [elementVariables, List.map_map, List.map_map]
    exact List.map_congr_left fun d _ ↦ name_elementVariable d

/-- The identifiers of a source are taken once each. The keyword names of its page object differ up
to case exactly if no two public methods have the same words in title case up to case, and the
variable names exactly if no two declared elements have the same words in upper case; and so for
the keyword names of a utility resource and of a placeholder, with the method names of its
signatures. -/
theorem generated_names_distinct_iff (source : String) (ctx : Context) :
    (∀ (o : Outline) (g : Generated), outline source = .ok o →
      pageObjectResource source ctx = .ok (some g) →
        (o.pageMethods.map Method.name).Nodup ∧
        (NamesDiffer g.file.keywords ↔
          (o.pageMethods.map Method.name).Pairwise fun a b ↦ ¬ SameTitle a b) ∧
        ((g.file.declarations.map Variable.name).Nodup ↔
          ((elementDeclarations o).map ElementDeclaration.name).Pairwise fun a b ↦
            ¬ SameConstant a b)) ∧
    (signatureNames source).Nodup ∧
    (NamesDiffer (utilityResource source ctx).keywords ↔
      (signatureNames source).Pairwise fun a b ↦ ¬ SameTitle a b) ∧
    ∀ reason : Option String,
      NamesDiffer (placeholderFile (signatureNames source) ctx reason).keywords ↔
        (signatureNames source).Pairwise fun a b ↦ ¬ SameTitle a b := by
  refine ⟨fun o g ho hg ↦ ⟨nodup_pageMethods o, ?_⟩, nodup_distinct _,
    namesDiffer_placeholderBlocks_iff _ _ _, fun _ ↦ namesDiffer_placeholderBlocks_iff _ _ _⟩
  obtain ⟨hkeywords, hdeclarations⟩ := names_of_pageObjectResource ho hg
  constructor
  · have hlower : g.file.keywords.map (fun b ↦ toLower b.name) =
        (o.pageMethods.map Method.name).map fun name ↦ toLower (ofIdentifier name) := by
      simpa [Function.comp_def] using congrArg (List.map toLower) hkeywords
    rw [NamesDiffer, hlower, nodup_map_ofIdentifier_iff]
  · rw [← nodup_map_constant_iff, hdeclarations]

/-- Names with different words lead to different keywords, here also where only a capital tells the
words apart. -/
theorem generated_names_distinct_iff_capital :
    let ctx : Context := ⟨.enhanced, "SeleniumLibrary", "A.java"⟩
    let source := "class A\x7bpublic void aB()\x7b\x7dpublic void ab()\x7b\x7d\x7d"
    ∃ g, pageObjectResource source ctx = .ok (some g) ∧
      g.file.keywords.map Block.name = ["A B", "Ab"] ∧ NamesDiffer g.file.keywords := by
  intro ctx source
  obtain ⟨o, ho, hmethods⟩ :
      ∃ o, outline source = .ok o ∧ o.pageMethods.map Method.name = ["aB", "ab"] :=
    exists_outline (by decide +kernel)
  obtain ⟨g, hg⟩ := exists_pageObjectResource ho (by rintro hnil; simp [hnil] at hmethods) ctx
  obtain ⟨hkeywords, -⟩ := names_of_pageObjectResource ho hg
  have hdiffer : (o.pageMethods.map Method.name).Pairwise fun a b ↦ ¬ SameTitle a b := by
    rw [hmethods]
    decide +kernel
  refine ⟨g, hg, ?_, ((generated_names_distinct_iff source ctx).1 o g ho hg).2.1.mpr hdiffer⟩
  rw [hkeywords, hmethods]
  decide +kernel

/-- Methods and elements whose names differ only in how their words are told apart are defined
twice, in each of the files. -/
theorem names_told_apart_by_underscore_collide :
    let ctx : Context := ⟨.enhanced, "SeleniumLibrary", "A.java"⟩
    let source := "class A\x7bBy aB=By.id(\"u\");By a_b=By.id(\"v\");" ++
      "public void aB()\x7b\x7dpublic void a_b()\x7b\x7d\x7d"
    (∃ o, outline source = .ok o ∧
      (elementDeclarations o).map ElementDeclaration.name = ["aB", "a_b"]) ∧
    (∃ g, pageObjectResource source ctx = .ok (some g) ∧
      g.file.keywords.map Block.name = ["A B", "A B"] ∧
      g.file.declarations.map Variable.name = ["A_B", "A_B"]) ∧
    signatureNames source = ["aB", "a_b"] ∧
    ¬ NamesDiffer (utilityResource source ctx).keywords ∧
    ¬ NamesDiffer (placeholderFile (signatureNames source) ctx none).keywords := by
  intro ctx source
  have hnames : signatureNames source = ["aB", "a_b"] := by decide +kernel
  have hsame : ¬ ["aB", "a_b"].Pairwise fun a b ↦ ¬ SameTitle a b := by decide +kernel
  obtain ⟨o, ho, hview⟩ : ∃ o, outline source = .ok o ∧
      (o.pageMethods.map Method.name, (elementDeclarations o).map ElementDeclaration.name) =
        (["aB", "a_b"], ["aB", "a_b"]) :=
    exists_outline (by decide +kernel)
  obtain ⟨hmethods, helements⟩ := Prod.mk.inj hview
  obtain ⟨g, hg⟩ := exists_pageObjectResource ho (by rintro hnil; simp [hnil] at hmethods) ctx
  obtain ⟨hkeywords, hdeclarations⟩ := names_of_pageObjectResource ho hg
  refine ⟨⟨o, ho, helements⟩, ⟨g, hg, ?_, ?_⟩, hnames, ?_, ?_⟩
  · rw [hkeywords, hmethods]
    decide +kernel
  · rw [hdeclarations, helements]
    decide +kernel
  · rwa [utilityResource, namesDiffer_placeholderBlocks_iff, hnames]
  · rwa [placeholderFile, namesDiffer_placeholderBlocks_iff, hnames]

end SuiteMigration
