import Mathlib.Data.List.Infix
import SuiteMigration.Path.Layout
import SuiteMigration.Proofs.Text.Lines
import SuiteMigration.Proofs.Text.Words

/-!
Paths as lists of segments. A normalized path is a list of segments joined by slashes, and the list
is read back from it; so starting with a directory, cutting off the file name and counting the
slashes are operations on lists. The target path of a source is the target root with some of the
segments of the source and a file name behind it.

A path lies at or below a directory exactly if its segments start with those of the directory;
slashes at the ends of the directory do not count, and a directory without segments is the
repository itself.
-/

set_option autoImplicit false
set_option relaxedAutoImplicit false

namespace SuiteMigration.Chars

/-! ### Pieces between separators -/

section Pieces

variable {p : Char → Bool} {c : Char}

theorem splitBy_ne_nil (p : Char → Bool) (cs : List Char) : splitBy p cs ≠ [] := by
  fun_cases splitBy p cs <;> simp

theorem splitBy_append (hc : p c = true) (front rest : List Char) :
    splitBy p (front ++ c :: rest) = splitBy p front ++ splitBy p rest := by
  induction front with
  | nil => simp [splitBy, hc]
  | cons d more ih =>
    by_cases hd : p d = true
    · simp [splitBy, hd, ih]
    · cases hmore : splitBy p more with
      | nil => exact absurd hmore (splitBy_ne_nil p more)
      | cons first others => simp [splitBy, hd, ih, hmore]

theorem splitBy_of_forall_not {cs : List Char} (h : ∀ d ∈ cs, p d = false) :
    splitBy p cs = [cs] := by
  induction cs with
  | nil => rfl
  | cons d more ih =>
    rw [splitBy, h d List.mem_cons_self, ih fun e he ↦ h e (List.mem_cons_of_mem _ he)]
    rfl

theorem splitBy_join (hc : p c = true) {parts : List (List Char)} (hne : parts ≠ [])
    (h : ∀ part ∈ parts, ∀ d ∈ part, p d = false) : splitBy p (join [c] parts) = parts := by
  induction parts with
  | nil => exact absurd rfl hne
  | cons part rest ih =>
    have hpart : splitBy p part = [part] := splitBy_of_forall_not (h part List.mem_cons_self)
    cases rest with
    | nil => rw [join_singleton, hpart]
    | cons next others =>
      rw [join_cons_cons, List.append_assoc, List.singleton_append, splitBy_append hc, hpart,
        ih (List.cons_ne_nil _ _) fun part hmem ↦ h part (List.mem_cons_of_mem _ hmem)]
      rfl

theorem not_of_mem_splitBy {cs part : List Char} (hpart : part ∈ splitBy p cs) :
    ∀ d ∈ part, p d = false := by
  fun_induction splitBy p cs generalizing part with
  | case1 => simp_all
  | case2 d rest hd ih =>
    rcases List.mem_cons.mp hpart with rfl | hmem
    · simp
    · exact ih hmem
  | case3 d rest hd hnil => exact absurd hnil (splitBy_ne_nil p rest)
  | case4 d rest hd first others heq ih =>
    rw [heq] at ih
    rcases List.mem_cons.mp hpart with rfl | hmem
    · intro e he
      rcases List.mem_cons.mp he with rfl | he
      · exact Bool.eq_false_iff.mpr hd
      · exact ih List.mem_cons_self e he
    · exact ih (List.mem_cons_of_mem _ hmem)

/-- Joined parts are the first ones, a separator and the others. -/
theorem join_append {separator : List Char} {parts others : List (List Char)} (hparts : parts ≠ [])
    (hothers : others ≠ []) :
    join separator (parts ++ others) =
      join separator parts ++ separator ++ join separator others := by
  induction parts with
  | nil => exact absurd rfl hparts
  | cons part rest ih =>
    cases rest with
    | nil =>
      obtain ⟨next, more, rfl⟩ := List.exists_cons_of_ne_nil hothers
      rw [List.singleton_append, join_cons_cons, join_singleton]
    | cons next more =>
      have hrest := ih (List.cons_ne_nil _ _)
      rw [List.cons_append] at hrest
      rw [List.cons_append, List.cons_append, join_cons_cons, hrest, join_cons_cons]
      simp only [List.append_assoc]

theorem breakOn?_singleton {before : List Char} (h : c ∉ before) (after : List Char) :
    breakOn? [c] (before ++ c :: after) = some (before, after) := by
  induction before with
  | nil => simp [breakOn?, afterStart?]
  | cons d more ih =>
    rw [List.mem_cons, not_or] at h
    simp [breakOn?, afterStart?, h.1, ih h.2]

theorem breakOnLast?_singleton {after : List Char} (h : c ∉ after) (before : List Char) :
    breakOnLast? [c] (before ++ c :: after) = some (before, after) := by
  have hreverse : c ∉ after.reverse := by simpa using h
  have hbreak := breakOn?_singleton hreverse before.reverse
  simp [breakOnLast?, hbreak]

theorem eq_append_of_breakOn? {part cs before after : List Char}
    (h : breakOn? part cs = some (before, after)) : cs = before ++ part ++ after := by
  induction cs generalizing before with
  | nil =>
    rw [breakOn?] at h
    split at h
    next hpart =>
      obtain ⟨rfl, rfl⟩ := Prod.mk.inj (Option.some.inj h)
      simpa using hpart
    next => cases h
  | cons c rest ih =>
    rw [breakOn?] at h
    split at h
    next hafter =>
      obtain ⟨rfl, rfl⟩ := Prod.mk.inj (Option.some.inj h)
      exact eq_append_of_afterStart? hafter
    next =>
      obtain ⟨⟨front, back⟩, hrest, hpair⟩ := Option.map_eq_some_iff.mp h
      obtain ⟨rfl, rfl⟩ := Prod.mk.inj hpair
      rw [ih hrest]
      rfl

theorem eq_append_of_breakOnLast? {part cs before after : List Char}
    (h : breakOnLast? part cs = some (before, after)) : cs = before ++ part ++ after := by
  obtain ⟨⟨back, front⟩, hbreak, hpair⟩ := Option.map_eq_some_iff.mp h
  obtain ⟨rfl, rfl⟩ := Prod.mk.inj hpair
  have hreverse := congrArg List.reverse (eq_append_of_breakOn? hbreak)
  simpa using hreverse

theorem replaceFrom_singleton (c : Char) (image cs : List Char) :
    replaceFrom [c] image 0 cs = cs.flatMap fun d ↦ if c = d then image else [d] := by
  induction cs with
  | nil => rfl
  | cons d more ih =>
    rw [replaceFrom, List.flatMap_cons, ← ih]
    by_cases hd : c = d <;> simp [startsWith, afterStart?, hd]

/-- The pieces of a text hold all of it but the characters between them. -/
theorem mem_splitBy {cs : List Char} (hc : c ∈ cs) (h : p c = false) :
    ∃ part ∈ splitBy p cs, c ∈ part := by
  fun_induction splitBy p cs with
  | case1 => cases hc
  | case2 d rest hd ih =>
    obtain rfl | hc := List.mem_cons.mp hc
    · rw [hd] at h
      cases h
    · obtain ⟨part, hpart, hmem⟩ := ih hc
      exact ⟨part, List.mem_cons_of_mem _ hpart, hmem⟩
  | case3 d rest hd heq ih =>
    obtain rfl | hc := List.mem_cons.mp hc
    · exact ⟨[c], List.mem_cons_self, List.mem_cons_self⟩
    · obtain ⟨part, hpart, _⟩ := ih hc
      rw [heq] at hpart
      cases hpart
  | case4 d rest hd first others heq ih =>
    obtain rfl | hc := List.mem_cons.mp hc
    · exact ⟨c :: first, List.mem_cons_self, List.mem_cons_self⟩
    · obtain ⟨part, hpart, hmem⟩ := ih hc
      rw [heq] at hpart
      obtain rfl | hpart := List.mem_cons.mp hpart
      · exact ⟨d :: part, List.mem_cons_self, List.mem_cons_of_mem _ hmem⟩
      · exact ⟨part, List.mem_cons_of_mem _ hpart, hmem⟩

theorem join_splitBy (c : Char) (cs : List Char) : join [c] (splitBy (· == c) cs) = cs := by
  fun_induction splitBy (· == c) cs with
  | case1 => rfl
  | case2 d rest hd ih =>
    obtain rfl : d = c := by simpa using hd
    obtain ⟨first, others, heq⟩ := List.exists_cons_of_ne_nil (splitBy_ne_nil (· == d) rest)
    rw [heq] at ih ⊢
    rw [join_cons_cons, ih]
    rfl
  | case3 d rest hd hnil => exact absurd hnil (splitBy_ne_nil _ rest)
  | case4 d rest hd first others heq ih =>
    rw [heq] at ih
    rw [← ih]
    cases others <;> simp

/-- The pieces of a text come first among those of another exactly if the other text goes on behind
a separator, if at all. -/
theorem splitBy_prefix_iff {cs ds : List Char} :
    splitBy (· == c) cs <+: splitBy (· == c) ds ↔ ds = cs ∨ cs ++ [c] <+: ds := by
  constructor
  · rintro ⟨more, hmore⟩
    have hds := join_splitBy c ds
    rw [← hmore] at hds
    by_cases hne : more = []
    · rw [hne, List.append_nil, join_splitBy] at hds
      exact Or.inl hds.symm
    · rw [join_append (splitBy_ne_nil _ cs) hne, join_splitBy] at hds
      exact Or.inr ⟨_, hds⟩
  · rintro (rfl | ⟨rest, rfl⟩)
    · exact List.prefix_rfl
    · have hsplit := splitBy_append (p := (· == c)) (beq_self_eq_true c) cs rest
      rw [List.append_assoc, List.singleton_append, hsplit]
      exact List.prefix_append _ _

end Pieces

end SuiteMigration.Chars

namespace SuiteMigration.Path

open SuiteMigration.Text SuiteMigration.Chars

/-! ### Segments -/

def isSlash (c : Char) : Bool :=
  c == '/' || c == '\\'

/-- A segment of a normalized path. -/
structure IsSegment (s : String) : Prop where
  ne_empty : s ≠ ""
  ne_point : s ≠ "."
  no_slash : ∀ c ∈ s.toList, isSlash c = false

/-- The path with the given segments. -/
def pathOf (segs : List String) : String :=
  String.intercalate "/" segs

theorem toList_pathOf (segs : List String) :
    (pathOf segs).toList = join ['/'] (segs.map String.toList) := by
  simp [pathOf, join]

@[simp] theorem pathOf_singleton (s : String) : pathOf [s] = s := by
  simp [pathOf]

theorem pathOf_append {segs others : List String} (hsegs : segs ≠ []) (hothers : others ≠ []) :
    pathOf (segs ++ others) = pathOf segs ++ "/" ++ pathOf others := by
  apply String.toList_injective
  rw [toList_pathOf, List.map_append, join_append (by simpa using hsegs) (by simpa using hothers)]
  simp [toList_pathOf]

theorem pathOf_cons (s : String) {segs : List String} (hsegs : segs ≠ []) :
    pathOf (s :: segs) = s ++ "/" ++ pathOf segs := by
  rw [← List.singleton_append, pathOf_append (List.cons_ne_nil _ _) hsegs, pathOf_singleton]

theorem segments_pathOf {segs : List String} (h : ∀ s ∈ segs, IsSegment s) :
    segments (pathOf segs) = segs := by
  have hkept : segs.filter (fun s ↦ !s.isEmpty) = segs := by
    refine List.filter_eq_self.mpr fun s hs ↦ ?_
    simpa using (h s hs).ne_empty
  by_cases hne : segs = []
  · subst hne
    decide
  · have hsplit : Chars.splitBy isSlash (join ['/'] (segs.map String.toList)) =
        segs.map String.toList := by
      refine splitBy_join rfl (by simpa using hne) fun part hpart ↦ ?_
      obtain ⟨s, hs, rfl⟩ := List.mem_map.mp hpart
      exact (h s hs).no_slash
    have hmap : (segs.map String.toList).map String.ofList = segs := by
      rw [List.map_map]
      exact List.map_id'' (fun _ ↦ String.ofList_toList) segs
    unfold segments Text.splitBy
    change ((Chars.splitBy isSlash _).map String.ofList).filter _ = segs
    rw [toList_pathOf, hsplit, hmap, hkept]

theorem pathOf_injective {segs others : List String} (hsegs : ∀ s ∈ segs, IsSegment s)
    (hothers : ∀ s ∈ others, IsSegment s) (h : pathOf segs = pathOf others) : segs = others := by
  rw [← segments_pathOf hsegs, h, segments_pathOf hothers]

theorem isSegment_of_mem {path s : String} (h : s ∈ (segments path).filter (· != ".")) :
    IsSegment s := by
  obtain ⟨hmem, hpoint⟩ := List.mem_filter.mp h
  obtain ⟨hpiece, hne⟩ := List.mem_filter.mp hmem
  obtain ⟨part, hpart, rfl⟩ := List.mem_map.mp hpiece
  refine ⟨by simpa using hne, by simpa using hpoint, ?_⟩
  rw [String.toList_ofList]
  exact not_of_mem_splitBy hpart

/-- A normalized path has segments of the path. -/
theorem exists_normalize_eq (path : String) :
    ∃ segs, normalize path = pathOf segs ∧ ∀ s ∈ segs, IsSegment s ∧ s ∈ segments path :=
  ⟨_, rfl, fun _ hs ↦ ⟨isSegment_of_mem hs, (List.mem_filter.mp hs).1⟩⟩

theorem normalize_pathOf {segs : List String} (h : ∀ s ∈ segs, IsSegment s) :
    normalize (pathOf segs) = pathOf segs := by
  rw [normalize, segments_pathOf h, List.filter_eq_self.mpr, pathOf]
  intro s hs
  simpa using (h s hs).ne_point

theorem pathOf_ne_empty {segs : List String} (h : ∀ s ∈ segs, IsSegment s) (hne : segs ≠ []) :
    pathOf segs ≠ "" :=
  fun heq ↦ hne (pathOf_injective h (by simp) heq)

/-- A path that starts with a directory has the segments of the directory and at least one more. -/
theorem afterStart?_pathOf {front segs : List String} {rest : String}
    (hfront : ∀ s ∈ front, IsSegment s) (hne : front ≠ []) (hsegs : ∀ s ∈ segs, IsSegment s) :
    afterStart? (pathOf front ++ "/") (pathOf segs) = some rest ↔
      ∃ more, more ≠ [] ∧ segs = front ++ more ∧ rest = pathOf more := by
  constructor
  · intro h
    obtain ⟨cs, hcs, rfl⟩ := Option.map_eq_some_iff.mp h
    have hchars := eq_append_of_afterStart? hcs
    -- both sides are cut at their slashes
    have hsplit := congrArg (fun ds ↦ ((Chars.splitBy isSlash ds).map String.ofList).filter
      fun s ↦ !s.isEmpty) hchars
    have hleft : ((Chars.splitBy isSlash (pathOf segs).toList).map String.ofList).filter
        (fun s ↦ !s.isEmpty) = segs := segments_pathOf hsegs
    have hright : ((Chars.splitBy isSlash (pathOf front).toList).map String.ofList).filter
        (fun s ↦ !s.isEmpty) = front := segments_pathOf hfront
    rw [String.toList_append, List.append_assoc] at hsplit
    change _ = ((Chars.splitBy isSlash ((pathOf front).toList ++ '/' :: cs)).map
      String.ofList).filter _ at hsplit
    rw [hleft, splitBy_append rfl, List.map_append, List.filter_append, hright] at hsplit
    obtain ⟨more, rfl⟩ : ∃ more, segs = front ++ more := ⟨_, hsplit⟩
    have hmore : more ≠ [] := by
      rintro rfl
      have hlength := congrArg List.length hchars
      simp at hlength
    refine ⟨more, hmore, rfl, ?_⟩
    rw [pathOf_append hne hmore, String.toList_append] at hchars
    rw [← List.append_cancel_left hchars, String.ofList_toList]
  · rintro ⟨more, hmore, rfl, rfl⟩
    rw [pathOf_append hne hmore]
    exact afterStart?_start_append _ _

/-- The directory and the name of a file. -/
theorem breakOnLast?_pathOf {front : List String} {name : String} (hne : front ≠ [])
    (hname : IsSegment name) :
    breakOnLast? "/" (pathOf (front ++ [name])) = some (pathOf front, name) := by
  have hslash : '/' ∉ name.toList := fun hmem ↦ by
    have := hname.no_slash '/' hmem
    cases this
  have hchars : (pathOf (front ++ [name])).toList =
      (pathOf front).toList ++ '/' :: name.toList := by
    rw [pathOf_append hne (List.cons_ne_nil _ _)]
    simp
  rw [Text.breakOnLast?, hchars]
  change (Chars.breakOnLast? ['/'] _).map _ = _
  rw [breakOnLast?_singleton hslash]
  simp

theorem count_slash_pathOf {segs : List String} (h : ∀ s ∈ segs, IsSegment s) :
    (pathOf segs).toList.count '/' = segs.length - 1 := by
  have hzero (s : String) (hs : IsSegment s) : s.toList.count '/' = 0 := by
    refine List.count_eq_zero.mpr fun hmem ↦ ?_
    have := hs.no_slash '/' hmem
    cases this
  induction segs with
  | nil => rfl
  | cons s rest ih =>
    have hfirst := hzero s (h s List.mem_cons_self)
    cases rest with
    | nil => simpa using hfirst
    | cons next more =>
      have hrest := ih fun t ht ↦ h t (List.mem_cons_of_mem _ ht)
      rw [pathOf_cons s (List.cons_ne_nil next more), String.toList_append, String.toList_append,
        List.count_append, List.count_append, hfirst, hrest]
      exact Nat.add_comm 1 more.length

theorem IsSegment.toList_ne_nil {s : String} (h : IsSegment s) : s.toList ≠ [] :=
  fun heq ↦ h.ne_empty (String.toList_eq_nil_iff.mp heq)

theorem IsSegment.ne_slash {s : String} (h : IsSegment s) {c : Char} (hc : c ∈ s.toList) :
    c ≠ '/' := by
  rintro rfl
  cases h.no_slash '/' hc

/-- A path is cut back into its segments at the slashes. -/
theorem splitOn_pathOf {segs : List String} (hne : segs ≠ []) (h : ∀ s ∈ segs, IsSegment s) :
    Text.splitOn '/' (pathOf segs) = segs := by
  have hsplit : Chars.splitBy (· == '/') (join ['/'] (segs.map String.toList)) =
      segs.map String.toList := by
    refine splitBy_join rfl (by simpa using hne) fun part hpart d hd ↦ ?_
    obtain ⟨s, hs, rfl⟩ := List.mem_map.mp hpart
    exact beq_false_of_ne ((h s hs).ne_slash hd)
  rw [Text.splitOn, Chars.splitOn, toList_pathOf, hsplit, map_ofList_map_toList]

theorem no_backslash_pathOf {segs : List String} (h : ∀ s ∈ segs, IsSegment s) :
    '\\' ∉ (pathOf segs).toList := by
  intro hmem
  rw [toList_pathOf] at hmem
  obtain hmem | ⟨part, hpart, hmem⟩ := mem_join hmem
  · exact absurd hmem (by decide)
  · obtain ⟨s, hs, rfl⟩ := List.mem_map.mp hpart
    cases (h s hs).no_slash _ hmem

theorem ne_slash_of_head? {segs : List String} (h : ∀ s ∈ segs, IsSegment s) :
    ∀ c ∈ (pathOf segs).toList.head?, c ≠ '/' := by
  intro c hc
  rw [toList_pathOf] at hc
  cases segs with
  | nil => cases hc
  | cons s rest =>
    have hs := h s List.mem_cons_self
    obtain ⟨d, more, hcons⟩ := List.exists_cons_of_ne_nil hs.toList_ne_nil
    have hd : d = c := by cases rest <;> simpa [hcons] using hc
    exact hs.ne_slash (hcons ▸ hd ▸ List.mem_cons_self)

theorem ne_slash_of_getLast? {segs : List String} (h : ∀ s ∈ segs, IsSegment s) :
    ∀ c ∈ (pathOf segs).toList.getLast?, c ≠ '/' := by
  intro c hc
  obtain rfl | ⟨front, last, rfl⟩ := List.eq_nil_or_concat' segs
  · cases hc
  · have hlast := h last (by simp)
    obtain ⟨chars, hchars⟩ : ∃ chars, (pathOf (front ++ [last])).toList = chars ++ last.toList := by
      by_cases hfront : front = []
      · exact ⟨[], by simp [hfront]⟩
      · exact ⟨(pathOf front ++ "/").toList, by
          rw [pathOf_append hfront (List.cons_ne_nil _ _), String.toList_append,
            pathOf_singleton]⟩
    rw [hchars, List.getLast?_append_of_ne_nil _ hlast.toList_ne_nil] at hc
    exact hlast.ne_slash (List.mem_of_getLast? hc)

theorem trimSlashes_pathOf {segs : List String} (h : ∀ s ∈ segs, IsSegment s) :
    trimSlashes (pathOf segs) = pathOf segs := by
  have hkept {cs : List Char} (hcs : ∀ c ∈ cs.head?, c ≠ '/') : cs.dropWhile (· == '/') = cs := by
    cases cs with
    | nil => rfl
    | cons c rest =>
      have hc : (c == '/') = false := by simpa using hcs c rfl
      rw [List.dropWhile_cons, hc, if_neg Bool.false_ne_true]
  have hlast : ∀ c ∈ (pathOf segs).toList.reverse.head?, c ≠ '/' := by
    rw [List.head?_reverse]
    exact ne_slash_of_getLast? h
  unfold trimSlashes Text.dropEndWhile dropStartWhile Chars.dropEndWhile
  dsimp only
  rw [hkept (ne_slash_of_head? h), String.toList_ofList, hkept hlast, List.reverse_reverse,
    String.ofList_toList]

/-! ### Paths below a directory -/

/-- The segments of a directory. The repository itself has none; it is written as nothing, as a
point or as slashes. -/
def directorySegments (directory : String) : List String :=
  let dir := trimSlashes directory
  if dir = "" ∨ dir = "." then [] else Text.splitOn '/' dir

theorem map_toList_splitOn (separator : Char) (s : String) :
    (Text.splitOn separator s).map String.toList = Chars.splitBy (· == separator) s.toList := by
  simp [Text.splitOn, Chars.splitOn, Function.comp_def]

/-- The segments of a path start with those of another exactly if it is that path or goes on behind
a slash. -/
theorem splitOn_prefix_iff {dir path : String} :
    Text.splitOn '/' dir <+: Text.splitOn '/' path ↔
      path = dir ∨ Text.startsWith path (dir ++ "/") = true := by
  have hchars : Text.splitOn '/' dir <+: Text.splitOn '/' path ↔
      Chars.splitBy (· == '/') dir.toList <+: Chars.splitBy (· == '/') path.toList := by
    refine ⟨fun h ↦ ?_, fun h ↦ h.map String.ofList⟩
    rw [← map_toList_splitOn, ← map_toList_splitOn]
    exact h.map String.toList
  rw [hchars, splitBy_prefix_iff, String.toList_inj, startsWith_iff, String.toList_append]
  rfl

/-- A path lies at or below a directory exactly if its segments start with those of the
directory. -/
theorem isUnder_iff {path directory : String} :
    isUnder path directory = true ↔ directorySegments directory <+: Text.splitOn '/' path := by
  unfold isUnder directorySegments
  dsimp only
  split
  next hroot => simpa using Or.inl (Or.inl hroot)
  next hroot =>
    rw [splitOn_prefix_iff]
    simp only [Bool.or_eq_true, beq_iff_eq, String.isEmpty_iff, hroot, false_or]

/-! ### File names -/

/-- A character with an underscore for a space. -/
def underscored (c : Char) : Char :=
  if c = ' ' then '_' else c

theorem underscored_ne_space (c : Char) : underscored c ≠ ' ' := by
  unfold underscored
  split
  · decide
  next h => exact h

theorem isSlash_underscored (c : Char) : isSlash (underscored c) = isSlash c := by
  unfold underscored
  split
  next h =>
    rw [h]
    decide
  next => rfl

theorem toList_replace_space (s : String) :
    (replace " " "_" s).toList = s.toList.map underscored := by
  have himage : (fun d ↦ if ' ' = d then ['_'] else [d]) = fun d ↦ [underscored d] := by
    funext d
    by_cases hd : d = ' '
    · rw [if_pos hd.symm, underscored, if_pos hd]
    · rw [if_neg (Ne.symm hd), underscored, if_neg hd]
  rw [Text.replace, String.toList_ofList, Chars.replace]
  change replaceFrom [' '] ['_'] 0 _ = _
  rw [replaceFrom_singleton, himage, List.map_eq_flatMap]

/-- A target file name is a stem of characters of the source's name and an extension of keyword
files, with underscores for spaces. -/
theorem exists_targetFileName_eq (name : String) (role : Role) :
    ∃ stem extension, extension ∈ targetExtensions ∧ (∀ c ∈ stem, c ∈ name.toList) ∧
      (name ≠ "" → stem ≠ []) ∧
      targetFileName name role.extension =
        replace " " "_" (String.ofList stem ++ "." ++ extension) := by
  have hextension : role.extension ∈ targetExtensions := by cases role <;> decide
  have hwhole : name ≠ "" → name.toList ≠ [] := fun h ↦ by simpa using h
  unfold targetFileName splitExtension
  cases hbreak : breakOnLast? "." name with
  | none =>
    exact ⟨name.toList, role.extension, hextension, fun _ ↦ id, hwhole,
      by rw [String.ofList_toList]⟩
  | some pair =>
    obtain ⟨⟨before, after⟩, hchars, rfl⟩ := Option.map_eq_some_iff.mp hbreak
    have hname := eq_append_of_breakOnLast? hchars
    have hbefore : ∀ c ∈ before, c ∈ name.toList := by
      intro c hc
      rw [hname]
      simp [hc]
    dsimp only
    by_cases hempty : (String.ofList before).isEmpty = true
    · rw [if_pos hempty]
      exact ⟨name.toList, role.extension, hextension, fun _ ↦ id, hwhole,
        by rw [String.ofList_toList]⟩
    · rw [if_neg hempty]
      have hstem : name ≠ "" → before ≠ [] := fun _ h ↦ hempty (by rw [h]; rfl)
      dsimp only
      split
      next hknown =>
        refine ⟨before, String.ofList after, by simpa using hknown, hbefore, hstem, ?_⟩
        congr 1
        apply String.toList_injective
        simpa using hname
      next => exact ⟨before, role.extension, hextension, hbefore, hstem, rfl⟩

/-- A target file name is a segment, and it leads no directory up. -/
theorem isSegment_targetFileName {name : String} (h : IsSegment name) (role : Role) :
    IsSegment (targetFileName name role.extension) ∧ targetFileName name role.extension ≠ ".." := by
  obtain ⟨stem, extension, hextension, hstem, _, heq⟩ := exists_targetFileName_eq name role
  have hchars : (targetFileName name role.extension).toList =
      (stem ++ '.' :: extension.toList).map underscored := by
    rw [heq, toList_replace_space]
    simp
  have hletter : 'r' ∈ (targetFileName name role.extension).toList := by
    rw [hchars]
    refine List.mem_map.mpr ⟨'r', ?_, by decide⟩
    have hr : 'r' ∈ extension.toList := by
      simp only [targetExtensions, List.mem_cons, List.not_mem_nil, or_false] at hextension
      rcases hextension with rfl | rfl <;> decide
    simp [hr]
  have hne (s : String) (hs : 'r' ∉ s.toList) : targetFileName name role.extension ≠ s :=
    fun hsame ↦ hs (hsame ▸ hletter)
  refine ⟨⟨hne _ (by decide), hne _ (by decide), fun c hc ↦ ?_⟩, hne _ (by decide)⟩
  rw [hchars] at hc
  obtain ⟨d, hd, rfl⟩ := List.mem_map.mp hc
  rw [isSlash_underscored]
  rcases List.mem_append.mp hd with hd | hd
  · exact h.no_slash d (hstem d hd)
  · rcases List.mem_cons.mp hd with rfl | hd
    · rfl
    · have hall : targetExtensions.all (fun e ↦ e.toList.all fun c ↦ !isSlash c) = true := by
        decide
      have := List.all_eq_true.mp (List.all_eq_true.mp hall extension hextension) d hd
      simpa using this

/-! ### Layouts -/

/-- The target root of a layout has at least one segment. -/
theorem Layout.exists_targetRoot_eq (targetRoot : String) (sourceRoots : List String) :
    ∃ root, root ≠ [] ∧ (∀ s ∈ root, IsSegment s) ∧
      (Layout.withSourceRoots targetRoot sourceRoots).targetRoot = pathOf root := by
  obtain ⟨segs, hsegs, hall⟩ := exists_normalize_eq targetRoot
  unfold Layout.withSourceRoots
  dsimp only
  split
  · refine ⟨["robot"], List.cons_ne_nil _ _, ?_, by decide⟩
    simp only [List.mem_singleton, forall_eq]
    exact ⟨by decide, by decide, by simp [isSlash]⟩
  next hne =>
    refine ⟨segs, ?_, fun s hs ↦ (hall s hs).1, hsegs⟩
    rintro rfl
    exact hne (by rw [hsegs]; rfl)

/-- Every source root of a layout has at least one segment. -/
theorem Layout.exists_sourceRoot_eq {targetRoot root : String} {sourceRoots : List String}
    (h : root ∈ (Layout.withSourceRoots targetRoot sourceRoots).sourceRoots) :
    ∃ segs, segs ≠ [] ∧ (∀ s ∈ segs, IsSegment s) ∧ root = pathOf segs := by
  have hmem := (List.mergeSort_perm _ _).mem_iff.mp h
  obtain ⟨hroot, hne⟩ := List.mem_filter.mp hmem
  obtain ⟨source, _, rfl⟩ := List.mem_map.mp hroot
  obtain ⟨segs, hsegs, hall⟩ := exists_normalize_eq source
  refine ⟨segs, ?_, fun s hs ↦ (hall s hs).1, hsegs⟩
  rintro rfl
  rw [hsegs] at hne
  cases hne

/-- What stands below a source root is the end of the path. -/
theorem Layout.exists_relative_eq (targetRoot : String) (sourceRoots : List String)
    {segs : List String} (h : ∀ s ∈ segs, IsSegment s) (hne : segs ≠ []) :
    ∃ more, more ≠ [] ∧ more ⊆ segs ∧
      (Layout.withSourceRoots targetRoot sourceRoots).relative (pathOf segs) = pathOf more := by
  unfold Layout.relative
  cases hfound : List.findSome? _ _ with
  | none => exact ⟨segs, hne, List.Subset.refl _, rfl⟩
  | some rest =>
    obtain ⟨root, hroot, hrest⟩ := List.exists_of_findSome?_eq_some hfound
    obtain ⟨front, hfrontne, hfront, rfl⟩ := Layout.exists_sourceRoot_eq hroot
    obtain ⟨more, hmore, rfl, rfl⟩ := (afterStart?_pathOf hfront hfrontne h).mp hrest
    exact ⟨more, hmore, List.subset_append_right _ _, rfl⟩

/-- A path that is moved to the target root: it is not the root itself, and it leads no directory
up. -/
structure Layout.Moves (layout : Layout) (path : String) : Prop where
  no_parent : ".." ∉ segments path
  ne_empty : normalize path ≠ ""
  ne_root : normalize path ≠ layout.targetRoot

/-- A file stands below the target root, whether it did so before or is moved there. -/
theorem Layout.exists_rooted_eq {targetRoot : String} {sourceRoots root segs : List String}
    (hrootne : root ≠ []) (hroot : ∀ s ∈ root, IsSegment s)
    (htarget : (Layout.withSourceRoots targetRoot sourceRoots).targetRoot = pathOf root)
    (hne : segs ≠ []) (hsegments : ∀ s ∈ segs, IsSegment s)
    (hpath : pathOf segs ≠ (Layout.withSourceRoots targetRoot sourceRoots).targetRoot) :
    ∃ more, more ≠ [] ∧ more ⊆ segs ∧
      ((Layout.withSourceRoots targetRoot sourceRoots).isUnderTarget (pathOf segs) = true →
        pathOf segs = pathOf (root ++ more)) ∧
      (if (Layout.withSourceRoots targetRoot sourceRoots).isUnderTarget (pathOf segs) then
        pathOf segs
      else (Layout.withSourceRoots targetRoot sourceRoots).targetRoot ++ "/" ++
        (Layout.withSourceRoots targetRoot sourceRoots).relative (pathOf segs)) =
          pathOf (root ++ more) := by
  split
  next hunder =>
    rw [Layout.isUnderTarget, beq_false_of_ne hpath, Bool.false_or, htarget, Text.startsWith,
      Chars.startsWith] at hunder
    obtain ⟨chars, hchars⟩ := Option.isSome_iff_exists.mp hunder
    have hrest : Text.afterStart? (pathOf root ++ "/") (pathOf segs) =
        some (String.ofList chars) := congrArg (Option.map String.ofList) hchars
    obtain ⟨more, hmore, rfl, _⟩ := (afterStart?_pathOf hroot hrootne hsegments).mp hrest
    exact ⟨more, hmore, List.subset_append_right _ _, fun _ ↦ rfl, rfl⟩
  next hunder =>
    obtain ⟨more, hmore, hsubset, hrelative⟩ :=
      Layout.exists_relative_eq targetRoot sourceRoots hsegments hne
    exact ⟨more, hmore, hsubset, fun h ↦ absurd h hunder,
      by rw [hrelative, htarget, pathOf_append hrootne hmore]⟩

/-- The target of a path is the target root, directories of the path and a file name for its last
segment; the directories of a path below the root are kept. -/
theorem Layout.exists_directories_eq {targetRoot path : String} {sourceRoots root : List String}
    (hrootne : root ≠ []) (hroot : ∀ s ∈ root, IsSegment s)
    (htarget : (Layout.withSourceRoots targetRoot sourceRoots).targetRoot = pathOf root)
    (hempty : normalize path ≠ "")
    (hpath : normalize path ≠ (Layout.withSourceRoots targetRoot sourceRoots).targetRoot)
    (role : Role) :
    ∃ directories name, (∀ s ∈ directories ++ [name], IsSegment s ∧ s ∈ segments path) ∧
      ((Layout.withSourceRoots targetRoot sourceRoots).isUnderTarget (normalize path) = true →
        normalize path = pathOf (root ++ (directories ++ [name]))) ∧
      (Layout.withSourceRoots targetRoot sourceRoots).targetPath path role =
        pathOf (root ++ (directories ++ [targetFileName name role.extension])) := by
  obtain ⟨segs, hsegs, hall⟩ := exists_normalize_eq path
  have hsegments : ∀ s ∈ segs, IsSegment s := fun s hs ↦ (hall s hs).1
  have hne : segs ≠ [] := by
    rintro rfl
    exact hempty hsegs
  obtain ⟨more, hmore, hsubset, hkept, hrooted⟩ :=
    Layout.exists_rooted_eq hrootne hroot htarget hne hsegments (hsegs ▸ hpath)
  obtain ⟨directories, name, rfl⟩ : ∃ directories name, more = directories ++ [name] :=
    ⟨_, _, (List.dropLast_append_getLast hmore).symm⟩
  have hname : IsSegment name := hsegments name (hsubset (by simp))
  have hfront : root ++ directories ≠ [] := by simp [hrootne]
  have hfrontSegments : ∀ s ∈ root ++ directories, IsSegment s := by
    intro s hs
    rcases List.mem_append.mp hs with hs | hs
    · exact hroot s hs
    · exact hsegments s (hsubset (List.mem_append_left _ hs))
  refine ⟨directories, name, fun s hs ↦ hall s (hsubset hs), hsegs ▸ hkept, ?_⟩
  have hcondition : ((normalize path).isEmpty ||
      normalize path == (Layout.withSourceRoots targetRoot sourceRoots).targetRoot) = false := by
    simp [hempty, hpath]
  unfold Layout.targetPath
  dsimp only
  rw [hcondition, if_neg Bool.false_ne_true, hsegs, hrooted, ← List.append_assoc,
    breakOnLast?_pathOf hfront hname]
  dsimp only
  rw [if_neg (by simpa using pathOf_ne_empty hfrontSegments hfront), ← List.append_assoc,
    pathOf_append hfront (List.cons_ne_nil _ _), pathOf_singleton]

/-- The target of a path that leads no directory up leads none up either. -/
theorem Layout.exists_targetPath_eq {targetRoot path : String} {sourceRoots root : List String}
    (hrootne : root ≠ []) (hroot : ∀ s ∈ root, IsSegment s)
    (htarget : (Layout.withSourceRoots targetRoot sourceRoots).targetRoot = pathOf root)
    (h : (Layout.withSourceRoots targetRoot sourceRoots).Moves path) (role : Role) :
    ∃ directories name, (∀ s ∈ directories ++ [name], IsSegment s ∧ s ≠ "..") ∧
      (Layout.withSourceRoots targetRoot sourceRoots).targetPath path role =
        pathOf (root ++ (directories ++ [name])) := by
  obtain ⟨directories, name, hall, _, heq⟩ :=
    Layout.exists_directories_eq hrootne hroot htarget h.ne_empty h.ne_root role
  refine ⟨directories, targetFileName name role.extension, fun s hs ↦ ?_, heq⟩
  rcases List.mem_append.mp hs with hs | hs
  · obtain ⟨hsegment, hmem⟩ := hall s (List.mem_append_left _ hs)
    exact ⟨hsegment, fun hup ↦ h.no_parent (hup ▸ hmem)⟩
  · obtain rfl := List.mem_singleton.mp hs
    exact isSegment_targetFileName (hall name (by simp)).1 role

end SuiteMigration.Path
