import Mathlib.Algebra.GroupWithZero.Nat
import SuiteMigration.Proofs.Text.Words
import SuiteMigration.Text.Basic

/-!
Lines of a text. A line that is written with its line feed is read back as it is, so lines that are
joined are the lines of the joined text; and the lines of a text hold no line feed and no character
that the text does not hold. Reading the lines of a text and writing them down again loses the
carriage returns that stand before line feeds, and nothing else if the text ends in a line feed. A
text that has lost none is plain.
-/

set_option autoImplicit false
set_option relaxedAutoImplicit false

namespace SuiteMigration.Chars

/-- A text that is one line when a line feed follows it: it holds no line feed, and does not end in
a carriage return, which would belong to the line feed. -/
def IsLine (cs : List Char) : Prop :=
  '\n' ∉ cs ∧ cs.getLast? ≠ some '\r'

instance (cs : List Char) : Decidable (IsLine cs) :=
  inferInstanceAs (Decidable (_ ∧ _))

/-- A text without line feeds and carriage returns. -/
def OneLine (cs : List Char) : Prop :=
  ∀ c ∈ cs, c ≠ '\n' ∧ c ≠ '\r'

instance (cs : List Char) : Decidable (OneLine cs) :=
  List.decidableBAll (fun c ↦ c ≠ '\n' ∧ c ≠ '\r') cs

theorem OneLine.isLine {cs : List Char} (h : OneLine cs) : IsLine cs :=
  ⟨fun hfeed ↦ (h _ hfeed).1 rfl, fun hlast ↦ (h _ (List.mem_of_getLast? hlast)).2 rfl⟩

theorem OneLine.append {cs ds : List Char} (hfirst : OneLine cs) (hsecond : OneLine ds) :
    OneLine (cs ++ ds) :=
  fun c hc ↦ (List.mem_append.mp hc).elim (hfirst c) (hsecond c)

/-- A character that ends no line belongs to the first line of what follows it. -/
theorem lines_cons {c : Char} {rest : List Char} (hfeed : c ≠ '\n')
    (hreturn : c = '\r' → rest.head? ≠ some '\n') :
    lines (c :: rest) =
      match lines rest with
      | [] => [[c]]
      | first :: others => (c :: first) :: others := by
  rw [lines.eq_def]
  split
  next h => cases h
  next h =>
    obtain ⟨rfl, rfl⟩ := List.cons.inj h
    exact absurd rfl (hreturn rfl)
  next h => exact absurd (List.cons.inj h).1 hfeed
  next h =>
    obtain ⟨rfl, rfl⟩ := List.cons.inj h
    rfl

/-- What a line feed ends is the first line. -/
theorem lines_append_newline {cs : List Char} (h : IsLine cs) (rest : List Char) :
    lines (cs ++ '\n' :: rest) = cs :: lines rest := by
  induction cs with
  | nil => rfl
  | cons c others ih =>
    obtain ⟨hfeed, hlast⟩ := h
    rw [List.mem_cons, not_or] at hfeed
    have hothers : lines (others ++ '\n' :: rest) = others :: lines rest := by
      refine ih ⟨hfeed.2, ?_⟩
      cases others with
      | nil => simp
      | cons d more => rwa [List.getLast?_cons_cons] at hlast
    rw [List.cons_append, lines_cons (Ne.symm hfeed.1), hothers]
    rintro rfl
    cases others with
    | nil => exact absurd rfl hlast
    | cons d more =>
      rw [List.mem_cons, not_or] at hfeed
      exact fun hhead ↦ hfeed.2.1 (Option.some.inj hhead).symm

/-- Lines that are joined by line feeds are read back. -/
theorem lines_join {parts : List (List Char)} (hne : parts ≠ [])
    (h : ∀ part ∈ parts, IsLine part) : lines (join ['\n'] parts ++ ['\n']) = parts := by
  induction parts with
  | nil => exact absurd rfl hne
  | cons part rest ih =>
    have hpart := h part List.mem_cons_self
    cases rest with
    | nil => rw [join_singleton, lines_append_newline hpart, lines]
    | cons next others =>
      rw [join_cons_cons, List.append_assoc, List.append_assoc, List.singleton_append,
        lines_append_newline hpart,
        ih (List.cons_ne_nil _ _) fun other hother ↦ h other (List.mem_cons_of_mem _ hother)]

theorem lines_of_isLine {cs : List Char} (hne : cs ≠ []) (h : IsLine cs) : lines cs = [cs] := by
  induction cs with
  | nil => exact absurd rfl hne
  | cons c rest ih =>
    obtain ⟨hfeed, hlast⟩ := h
    rw [List.mem_cons, not_or] at hfeed
    cases rest with
    | nil => exact lines_cons (Ne.symm hfeed.1) fun _ ↦ nofun
    | cons d others =>
      rw [List.getLast?_cons_cons] at hlast
      rw [lines_cons (Ne.symm hfeed.1), ih (List.cons_ne_nil _ _) ⟨hfeed.2, hlast⟩]
      exact fun _ hhead ↦ hfeed.2 (Option.some.inj hhead ▸ List.mem_cons_self)

/-- Without a line feed at the end an empty line there is not read back. -/
theorem lines_join_open {parts : List (List Char)} (h : ∀ part ∈ parts, IsLine part) :
    lines (join ['\n'] parts) = parts ∨ parts = lines (join ['\n'] parts) ++ [[]] := by
  induction parts with
  | nil => exact Or.inl rfl
  | cons part rest ih =>
    have hpart := h part List.mem_cons_self
    cases rest with
    | nil =>
      rw [join_singleton]
      by_cases hne : part = []
      · subst hne
        exact Or.inr rfl
      · exact Or.inl (lines_of_isLine hne hpart)
    | cons next others =>
      rw [join_cons_cons, List.append_assoc, List.singleton_append, lines_append_newline hpart,
        List.cons_append]
      exact (ih fun other hother ↦ h other (List.mem_cons_of_mem _ hother)).imp
        (congrArg (part :: ·)) (congrArg (part :: ·))

/-- Every character of a line stands in the text, and none is a line feed. -/
theorem mem_of_mem_lines {cs line : List Char} (h : line ∈ lines cs) {c : Char} (hc : c ∈ line) :
    c ∈ cs ∧ c ≠ '\n' := by
  fun_induction lines cs generalizing line c with
  | case1 => cases h
  | case2 rest ih =>
    obtain rfl | h := List.mem_cons.mp h
    · cases hc
    · exact (ih h hc).imp_left fun hmem ↦ List.mem_cons_of_mem _ (List.mem_cons_of_mem _ hmem)
  | case3 rest ih =>
    obtain rfl | h := List.mem_cons.mp h
    · cases hc
    · exact (ih h hc).imp_left (List.mem_cons_of_mem _)
  | case4 d rest _ hfeed heq ih =>
    obtain rfl := List.mem_singleton.mp h
    obtain rfl := List.mem_singleton.mp hc
    exact ⟨List.mem_cons_self, hfeed⟩
  | case5 d rest _ hfeed first others heq ih =>
    rw [heq] at ih
    obtain rfl | h := List.mem_cons.mp h
    · obtain rfl | hc := List.mem_cons.mp hc
      · exact ⟨List.mem_cons_self, hfeed⟩
      · exact (ih List.mem_cons_self hc).imp_left (List.mem_cons_of_mem _)
    · exact (ih (List.mem_cons_of_mem _ h) hc).imp_left (List.mem_cons_of_mem _)

theorem oneLine_of_mem_lines {cs line : List Char} (hreturn : '\r' ∉ cs) (h : line ∈ lines cs) :
    OneLine line := by
  intro c hc
  obtain ⟨hmem, hfeed⟩ := mem_of_mem_lines h hc
  exact ⟨hfeed, fun heq ↦ hreturn (heq ▸ hmem)⟩

/-- A text starts as its first line does. -/
theorem head?_of_lines {cs line : List Char} {rest : List (List Char)} {c : Char}
    (h : lines cs = line :: rest) (hc : line.head? = some c) : cs.head? = some c := by
  revert h
  fun_cases lines cs with
  | case1 => exact fun h ↦ nomatch h
  | case2 others =>
    intro h
    rw [← (List.cons.inj h).1] at hc
    cases hc
  | case3 others =>
    intro h
    rw [← (List.cons.inj h).1] at hc
    cases hc
  | case4 d others _ hfeed heq =>
    intro h
    rwa [← (List.cons.inj h).1] at hc
  | case5 d others _ hfeed first more heq =>
    intro h
    rwa [← (List.cons.inj h).1] at hc

end SuiteMigration.Chars

namespace SuiteMigration.Text

open SuiteMigration.Chars

theorem lines_append_newline {s : String} (h : IsLine s.toList) (rest : String) :
    lines (s ++ "\n" ++ rest) = s :: lines rest := by
  have htoList : (s ++ "\n" ++ rest).toList = s.toList ++ '\n' :: rest.toList := by simp
  rw [lines, htoList, Chars.lines_append_newline h, List.map_cons, String.ofList_toList, lines]

theorem map_ofList_map_toList (content : List String) :
    (content.map String.toList).map String.ofList = content := by
  rw [List.map_map]
  exact List.map_id'' (fun _ ↦ String.ofList_toList) content

theorem lines_intercalate {content : List String} (hne : content ≠ [])
    (h : ∀ line ∈ content, IsLine line.toList) :
    lines (String.intercalate "\n" content ++ "\n") = content := by
  have htoList : (String.intercalate "\n" content ++ "\n").toList =
      join ['\n'] (content.map String.toList) ++ ['\n'] := by
    simp [join]
  rw [lines, htoList, lines_join (by simpa using hne) (by simpa using h), map_ofList_map_toList]

/-- Without a line feed at the end an empty line there is not read back. -/
theorem lines_intercalate_open {content : List String}
    (h : ∀ line ∈ content, IsLine line.toList) :
    lines (String.intercalate "\n" content) = content ∨
      content = lines (String.intercalate "\n" content) ++ [""] := by
  have htoList : (String.intercalate "\n" content).toList =
      join ['\n'] (content.map String.toList) := by
    simp [join]
  have hparts : ∀ part ∈ content.map String.toList, IsLine part := by simpa using h
  rw [lines, htoList]
  obtain heq | heq := lines_join_open hparts
  · rw [heq, map_ofList_map_toList]
    exact Or.inl rfl
  · have hmap := congrArg (List.map String.ofList) heq
    rw [map_ofList_map_toList, List.map_append] at hmap
    exact Or.inr hmap

theorem head?_of_lines {s line : String} {c : Char} (h : (lines s).head? = some line)
    (hc : line.toList.head? = some c) : s.toList.head? = some c := by
  rw [lines, List.head?_map] at h
  obtain ⟨cs, hcs, rfl⟩ := Option.map_eq_some_iff.mp h
  rw [String.toList_ofList] at hc
  obtain ⟨rest, hrest⟩ := List.head?_eq_some_iff.mp hcs
  exact Chars.head?_of_lines hrest hc

theorem head?_of_intercalate {line : String} {rest : List String} {c : Char} (hc : c ≠ '\n')
    (h : (String.intercalate "\n" (line :: rest) ++ "\n").toList.head? = some c) :
    line.toList.head? = some c := by
  have htoList : (String.intercalate "\n" (line :: rest) ++ "\n").toList =
      join ['\n'] (line.toList :: rest.map String.toList) ++ ['\n'] := by
    simp [join]
  rw [htoList] at h
  cases hline : line.toList with
  | nil =>
    -- then the text starts with a line feed
    have hfeed : '\n' = c := by cases rest <;> simpa [hline] using h
    exact absurd hfeed.symm hc
  | cons d more => cases rest <;> simpa [hline] using h

theorem afterStart?_start_append (start rest : String) :
    afterStart? start (start ++ rest) = some rest := by
  rw [afterStart?, String.toList_append, Chars.afterStart?_append, Option.map_some,
    String.ofList_toList]

theorem startsWith_iff {s start : String} :
    startsWith s start = true ↔ start.toList <+: s.toList := by
  rw [startsWith, Chars.startsWith, Option.isSome_iff_exists]
  constructor
  · rintro ⟨rest, hrest⟩
    exact ⟨rest, (Chars.eq_append_of_afterStart? hrest).symm⟩
  · rintro ⟨rest, hrest⟩
    exact ⟨rest, by rw [← hrest, Chars.afterStart?_append]⟩

theorem endsWith_iff {s ending : String} :
    endsWith s ending = true ↔ ending.toList <:+ s.toList := by
  rw [endsWith, Chars.endsWith, Chars.beforeEnd?, Option.isSome_map, Option.isSome_iff_exists,
    ← List.reverse_prefix]
  constructor
  · rintro ⟨rest, hrest⟩
    exact ⟨rest, (Chars.eq_append_of_afterStart? hrest).symm⟩
  · rintro ⟨rest, hrest⟩
    exact ⟨rest, hrest ▸ Chars.afterStart?_append _ rest⟩

theorem endsWith_append (s ending : String) : endsWith (s ++ ending) ending = true := by
  rw [endsWith_iff, String.toList_append]
  exact List.suffix_append _ _

theorem mem_lines_iff {s line : String} : line ∈ lines s ↔ line.toList ∈ Chars.lines s.toList := by
  rw [lines, List.mem_map]
  constructor
  · rintro ⟨cs, hcs, rfl⟩
    rwa [String.toList_ofList]
  · exact fun h ↦ ⟨line.toList, h, String.ofList_toList⟩

end SuiteMigration.Text

/-! ### Texts that are made up of their lines -/

namespace SuiteMigration.Chars

/-- The number of carriage returns in lines. -/
def lineReturns (parts : List (List Char)) : Nat :=
  (parts.map (List.count '\r')).sum

@[simp] theorem lineReturns_nil : lineReturns [] = 0 := rfl

@[simp] theorem lineReturns_cons (part : List Char) (parts : List (List Char)) :
    lineReturns (part :: parts) = part.count '\r' + lineReturns parts := by
  simp [lineReturns]

theorem count_join (parts : List (List Char)) :
    (join ['\n'] parts).count '\r' = lineReturns parts := by
  induction parts with
  | nil => rfl
  | cons part rest ih =>
    cases rest with
    | nil => simp
    | cons next others =>
      rw [join_cons_cons, List.count_append, List.count_append, ih, lineReturns_cons]
      rfl

/-- Reading lines adds no carriage return. -/
theorem lineReturns_lines_le (cs : List Char) : lineReturns (lines cs) ≤ cs.count '\r' := by
  fun_induction lines cs with
  | case1 => exact Nat.le_refl _
  | case2 rest ih => simp; omega
  | case3 rest ih => simpa using ih
  | case4 c rest _ _ heq ih =>
    rw [lineReturns_cons, lineReturns_nil, List.count_cons, List.count_cons, List.count_nil]
    omega
  | case5 c rest _ _ first others heq ih =>
    rw [heq, lineReturns_cons] at ih
    rw [lineReturns_cons, List.count_cons, List.count_cons]
    omega

theorem OneLine.append_isLine {cs ds : List Char} (hcs : OneLine cs) (hds : IsLine ds) :
    IsLine (cs ++ ds) := by
  refine ⟨fun hfeed ↦ ?_, fun hlast ↦ ?_⟩
  · obtain hfeed | hfeed := List.mem_append.mp hfeed
    · exact (hcs _ hfeed).1 rfl
    · exact hds.1 hfeed
  · rw [List.getLast?_append, Option.or_eq_some_iff] at hlast
    obtain hlast | ⟨_, hlast⟩ := hlast
    · exact hds.2 hlast
    · exact hcs.isLine.2 hlast

/-- A text is plain if its lines, with a line feed after each, are the text. -/
def Plain (cs : List Char) : Prop :=
  join ['\n'] (lines cs) ++ ['\n'] = cs

theorem lines_eq_nil_iff {cs : List Char} : lines cs = [] ↔ cs = [] := by
  fun_cases lines cs with
  | case1 => simp
  | case2 rest => simp
  | case3 rest => simp
  | case4 c rest _ _ heq => simp
  | case5 c rest _ _ first others heq => simp

theorem join_cons_char (c : Char) (first : List Char) (others : List (List Char)) :
    join ['\n'] ((c :: first) :: others) = c :: join ['\n'] (first :: others) := by
  cases others with
  | nil => rw [join_singleton, join_singleton]
  | cons next more => rw [join_cons_cons, join_cons_cons, List.cons_append, List.cons_append]

theorem join_concat (parts : List (List Char)) (hne : parts ≠ []) (part : List Char) :
    join ['\n'] (parts ++ [part]) = join ['\n'] parts ++ '\n' :: part := by
  induction parts with
  | nil => exact absurd rfl hne
  | cons first rest ih =>
    cases rest with
    | nil => simp
    | cons next others =>
      rw [List.cons_append, List.cons_append, join_cons_cons, ← List.cons_append,
        ih (List.cons_ne_nil _ _), join_cons_cons, List.append_assoc, List.append_assoc,
        List.append_assoc]

/-- A text that ends in a line feed and loses no carriage return is plain, and then its lines are
such that they can be read back. -/
theorem plain_and_isLine {cs : List Char} (hcount : cs.count '\r' ≤ lineReturns (lines cs))
    (hend : cs.getLast? = some '\n') : Plain cs ∧ ∀ line ∈ lines cs, IsLine line := by
  unfold Plain
  fun_induction lines cs with
  | case1 => cases hend
  | case2 rest ih =>
    -- this carriage return would be lost
    have hle := lineReturns_lines_le rest
    simp at hcount
    omega
  | case3 rest ih =>
    have hempty : IsLine [] := by decide
    cases rest with
    | nil => exact ⟨rfl, by simpa [lines] using hempty⟩
    | cons d more =>
      obtain ⟨hplain, hlines⟩ := ih (by simpa using hcount) hend
      obtain ⟨first, others, heq⟩ := List.exists_cons_of_ne_nil
        (mt lines_eq_nil_iff.mp (List.cons_ne_nil d more))
      rw [heq] at hplain hlines ⊢
      refine ⟨?_, List.forall_mem_cons.mpr ⟨hempty, hlines⟩⟩
      rw [join_cons_cons, List.append_assoc, hplain]
      rfl
  | case4 c rest _ hfeed heq ih =>
    obtain rfl := lines_eq_nil_iff.mp heq
    exact absurd (Option.some.inj hend) hfeed
  | case5 c rest hreturn hfeed first others heq ih =>
    have hne : rest ≠ [] := fun hnil ↦ by
      rw [hnil] at heq
      cases heq
    obtain ⟨d, more, rfl⟩ := List.exists_cons_of_ne_nil hne
    rw [heq] at ih
    have hcount : (d :: more).count '\r' ≤ lineReturns (first :: others) := by
      rw [lineReturns_cons, List.count_cons, List.count_cons (l := first)] at hcount
      rw [lineReturns_cons]
      omega
    obtain ⟨hplain, hlines⟩ := ih hcount hend
    obtain ⟨hfirst, hothers⟩ := List.forall_mem_cons.mp hlines
    refine ⟨?_, List.forall_mem_cons.mpr ⟨⟨?_, ?_⟩, hothers⟩⟩
    · rw [join_cons_char, List.cons_append, hplain]
    · rw [List.mem_cons, not_or]
      exact ⟨fun h ↦ hfeed h.symm, hfirst.1⟩
    · cases first with
      | nil =>
        -- the next character ends the line
        rintro hlast
        have hhead : (d :: more).head? = some '\n' := by
          rw [← hplain]
          cases others <;> simp
        exact hreturn more (Option.some.inj hlast) (by rw [Option.some.inj hhead])
      | cons e rest' =>
        rw [List.getLast?_cons_cons]
        exact hfirst.2

theorem Plain.isLine {cs : List Char} (h : Plain cs) : ∀ line ∈ lines cs, IsLine line := by
  refine (plain_and_isLine ?_ ?_).2
  · refine Nat.le_of_eq ?_
    conv_lhs => rw [← h, List.count_append, count_join]
    rfl
  · rw [← h, List.getLast?_concat]

/-- A line without the carriage return that belongs to its line feed. -/
def withoutReturn (cs : List Char) : List Char :=
  if cs.getLast? = some '\r' then cs.dropLast else cs

theorem lines_append_newline_of_not_mem {cs : List Char} (h : '\n' ∉ cs) (rest : List Char) :
    lines (cs ++ '\n' :: rest) = withoutReturn cs :: lines rest := by
  unfold withoutReturn
  split
  next hreturn =>
    obtain ⟨front, rfl⟩ := List.getLast?_eq_some_iff.mp hreturn
    rw [List.dropLast_concat]
    have hfront : '\n' ∉ front := fun hmem ↦ h (List.mem_append_left _ hmem)
    clear h hreturn
    induction front with
    | nil => rfl
    | cons c others ih =>
      rw [List.mem_cons, not_or] at hfront
      have hhead : c = '\r' → (others ++ ['\r'] ++ '\n' :: rest).head? ≠ some '\n' := by
        cases others with
        | nil => exact fun _ hd ↦ absurd (Option.some.inj hd) (by decide)
        | cons d more =>
          rintro _ hd
          rw [List.mem_cons, not_or] at hfront
          exact hfront.2.1 (Option.some.inj hd).symm
      rw [List.cons_append, List.cons_append, lines_cons (Ne.symm hfront.1) hhead, ih hfront.2]
  next hreturn => exact lines_append_newline ⟨h, hreturn⟩ rest

/-- Characters taken away at the start of a text do not reach beyond its first line. -/
theorem suffix_lines_dropWhile {p : Char → Bool} (hfeed : p '\n' = false) (hreturn : p '\r' = false)
    {line : List Char} {rest : List (List Char)} (hline : ∀ c ∈ line.head?, p c = false)
    {cs : List Char} (h : line :: rest <:+ lines cs) :
    line :: rest <:+ lines (cs.dropWhile p) := by
  induction cs with
  | nil => exact h
  | cons c others ih =>
    cases hc : p c with
    | false => rwa [List.dropWhile_cons_of_neg (Bool.eq_false_iff.mp hc)]
    | true =>
      rw [List.dropWhile_cons_of_pos hc]
      refine ih ?_
      -- the line is not the first one, because that starts with the character taken away
      have hother (first : List Char) : line ≠ c :: first := by
        rintro rfl
        rw [hline c rfl] at hc
        cases hc
      rw [lines_cons (by rintro rfl; rw [hfeed] at hc; cases hc)
        (by rintro rfl; rw [hreturn] at hc; cases hc)] at h
      split at h
      next =>
        obtain h | h := List.suffix_cons_iff.mp h
        · exact absurd (List.cons.inj h).1 (hother _)
        · cases List.suffix_nil.mp h
      next first later heq =>
        rw [heq]
        obtain h | h := List.suffix_cons_iff.mp h
        · exact absurd (List.cons.inj h).1 (hother _)
        · exact h.trans (List.suffix_cons _ _)

end SuiteMigration.Chars

namespace SuiteMigration.Text

open SuiteMigration.Chars

theorem endsWith_newline_iff {s : String} :
    endsWith s "\n" = true ↔ s.toList.getLast? = some '\n' := by
  have hfeed : ("\n").toList = ['\n'] := rfl
  rw [endsWith_iff, hfeed, List.getLast?_eq_some_iff]
  exact exists_congr fun _ ↦ eq_comm

theorem map_toList_lines (s : String) : (lines s).map String.toList = Chars.lines s.toList := by
  rw [lines, List.map_map]
  exact List.map_id'' (fun _ ↦ String.toList_ofList) _

theorem not_mem_of_mem_lines {content line : String} (h : line ∈ lines content) :
    '\n' ∉ line.toList :=
  fun hfeed ↦ (Chars.mem_of_mem_lines (mem_lines_iff.mp h) hfeed).2 rfl

/-- A line as it is read back after it has been written: a carriage return at its end is lost. -/
def readBack (line : String) : String :=
  String.ofList (Chars.withoutReturn line.toList)

theorem readBack_eq_self {line : String} (h : Chars.IsLine line.toList) : readBack line = line := by
  rw [readBack, Chars.withoutReturn, if_neg h.2, String.ofList_toList]

end SuiteMigration.Text
