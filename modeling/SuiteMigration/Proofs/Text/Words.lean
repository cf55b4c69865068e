import Mathlib.Data.List.Basic
import Mathlib.Data.List.Chain
import Mathlib.Data.List.DropRight
import Mathlib.Data.List.TakeWhile
import SuiteMigration.Text.Chars

/-!
Words of a text that is joined from parts by single spaces. They are the words of its parts, in
their order, whatever spaces the parts hold themselves; and trimming leaves a text alone that
neither starts nor ends with white space.
-/

set_option autoImplicit false
set_option relaxedAutoImplicit false

namespace SuiteMigration.Text

/-- A code point in a table lies in one of its runs. -/
theorem Table.exists_run_of_contains {runs : List Run} {n : Nat} (h : contains runs n = true) :
    ∃ run ∈ runs, run.first ≤ n ∧ n ≤ run.last := by
  induction runs with
  | nil => cases h
  | cons run rest ih =>
    unfold contains at h
    split at h
    next hle =>
      simp only [Run.contains, Bool.and_eq_true, decide_eq_true_eq] at h
      exact ⟨run, List.mem_cons_self, h.1.1, hle⟩
    next =>
      obtain ⟨other, hother, hrange⟩ := ih h
      exact ⟨other, List.mem_cons_of_mem _ hother, hrange⟩

/-- A table with no code point of the runs of another one. -/
def Table.avoids (runs others : List Run) : Bool :=
  others.all fun run ↦
    (List.range' run.first (run.last + 1 - run.first)).all fun n ↦ !contains runs n

theorem Table.contains_eq_false_of_avoids {runs others : List Run}
    (havoids : avoids runs others = true) {n : Nat} (h : contains others n = true) :
    contains runs n = false := by
  obtain ⟨run, hrun, hfirst, hlast⟩ := exists_run_of_contains h
  have hall := List.all_eq_true.mp (List.all_eq_true.mp havoids run hrun) n
    (List.mem_range'_1.mpr ⟨hfirst, by omega⟩)
  simpa using hall

theorem isBlank_space : isBlank ' ' = true := by decide

/-- White space is not a letter. -/
theorem isAlphabetic_of_isBlank {c : Char} (h : isBlank c = true) : isAlphabetic c = false :=
  Table.contains_eq_false_of_avoids (by decide +kernel) h

theorem contains_of_isAsciiDigit {c : Char} (h : isAsciiDigit c = true) :
    Table.contains [⟨0x30, 0x39, 1⟩] c.toNat = true := by
  rw [isAsciiDigit, Bool.and_eq_true, decide_eq_true_eq, decide_eq_true_eq] at h
  have hfirst : 0x30 ≤ c.toNat := h.1
  have hlast : c.toNat ≤ 0x39 := h.2
  simp [Table.contains, Table.Run.contains, hfirst, hlast, Nat.mod_one]

/-- A digit is not white space. -/
theorem isBlank_of_isAsciiDigit {c : Char} (h : isAsciiDigit c = true) : isBlank c = false :=
  Table.contains_eq_false_of_avoids (by decide +kernel) (contains_of_isAsciiDigit h)

/-- A digit is not a letter. -/
theorem isAlphabetic_of_isAsciiDigit {c : Char} (h : isAsciiDigit c = true) :
    isAlphabetic c = false :=
  Table.contains_eq_false_of_avoids (by decide +kernel) (contains_of_isAsciiDigit h)

end SuiteMigration.Text

namespace SuiteMigration.Chars

open SuiteMigration.Text

@[simp] theorem join_nil (separator : List Char) : join separator [] = [] := rfl

@[simp] theorem join_singleton (separator part : List Char) : join separator [part] = part := by
  simp [join]

@[simp] theorem join_cons_cons (separator part next : List Char) (rest : List (List Char)) :
    join separator (part :: next :: rest) = part ++ separator ++ join separator (next :: rest) := by
  simp [join]

theorem mem_join {c : Char} {separator : List Char} {parts : List (List Char)}
    (h : c ∈ join separator parts) : c ∈ separator ∨ ∃ part ∈ parts, c ∈ part := by
  induction parts with
  | nil => cases h
  | cons part rest ih =>
    cases rest with
    | nil => exact Or.inr ⟨part, List.mem_cons_self, by simpa using h⟩
    | cons next others =>
      rw [join_cons_cons, List.mem_append, List.mem_append] at h
      rcases h with (h | h) | h
      · exact Or.inr ⟨part, List.mem_cons_self, h⟩
      · exact Or.inl h
      · exact (ih h).imp_right fun ⟨p, hp, hc⟩ ↦ ⟨p, List.mem_cons_of_mem _ hp, hc⟩

theorem mem_join_of_mem {c : Char} {part : List Char} {parts : List (List Char)}
    (hpart : part ∈ parts) (hc : c ∈ part) (separator : List Char) : c ∈ join separator parts := by
  induction parts with
  | nil => cases hpart
  | cons first rest ih =>
    cases rest with
    | nil =>
      rw [join_singleton, ← List.mem_singleton.mp hpart]
      exact hc
    | cons next others =>
      rw [join_cons_cons, List.mem_append, List.mem_append]
      obtain rfl | hpart := List.mem_cons.mp hpart
      · exact Or.inl (Or.inl hc)
      · exact Or.inr (ih hpart)

/-- A translation that goes through appending and keeps the separator goes through a join. -/
theorem translate_join {f : List Char → List Char} {separator : List Char} (hnil : f [] = [])
    (happend : ∀ cs ds, f (cs ++ ds) = f cs ++ f ds) (hseparator : f separator = separator)
    (parts : List (List Char)) : f (join separator parts) = join separator (parts.map f) := by
  induction parts with
  | nil => exact hnil
  | cons part rest ih =>
    cases rest with
    | nil => simp
    | cons next others =>
      rw [join_cons_cons, happend, happend, hseparator, ih]
      simp only [List.map_cons, join_cons_cons]

theorem afterStart?_append (start rest : List Char) :
    afterStart? start (start ++ rest) = some rest := by
  induction start with
  | nil => rfl
  | cons c more ih => rw [List.cons_append, afterStart?, if_pos rfl, ih]

theorem eq_append_of_afterStart? {start cs rest : List Char}
    (h : afterStart? start cs = some rest) : cs = start ++ rest := by
  induction start generalizing cs with
  | nil => exact Option.some.inj h
  | cons c more ih =>
    cases cs with
    | nil => cases h
    | cons d others =>
      unfold afterStart? at h
      split at h
      next heq => rw [heq, ih h, List.cons_append]
      next => cases h

theorem afterStart?_eq_none {c : Char} {start cs : List Char} (h : c ∈ start) (hc : c ∉ cs) :
    afterStart? start cs = none := by
  cases hstart : afterStart? start cs with
  | none => rfl
  | some rest =>
    rw [eq_append_of_afterStart? hstart, List.mem_append] at hc
    exact absurd (Or.inl h) hc

theorem eq_append_of_contains {cs part : List Char} (h : contains cs part = true) :
    ∃ before after, cs = before ++ (part ++ after) := by
  induction cs with
  | nil =>
    cases part with
    | nil => exact ⟨[], [], rfl⟩
    | cons c more => cases h
  | cons c rest ih =>
    rw [contains, breakOn?] at h
    split at h
    next after hafter =>
      refine ⟨[], after, ?_⟩
      rw [List.nil_append, eq_append_of_afterStart? hafter]
    next =>
      rw [Option.isSome_map] at h
      obtain ⟨before, after, hrest⟩ := ih h
      exact ⟨c :: before, after, by rw [hrest, List.cons_append]⟩

theorem contains_iff {cs part : List Char} : contains cs part = true ↔ part <:+: cs := by
  constructor
  · intro h
    obtain ⟨before, after, rfl⟩ := eq_append_of_contains h
    exact ⟨before, after, List.append_assoc _ _ _⟩
  · rintro ⟨before, after, rfl⟩
    induction before with
    | nil =>
      rw [List.nil_append, contains]
      cases hcs : part ++ after with
      | nil =>
        rw [(List.append_eq_nil_iff.mp hcs).1]
        rfl
      | cons c rest =>
        rw [breakOn?, ← hcs, afterStart?_append]
        rfl
    | cons c rest ih =>
      rw [List.cons_append, List.cons_append, contains, breakOn?]
      split
      · rfl
      · rw [Option.isSome_map]
        exact ih

theorem contains_eq_false {c : Char} {cs part : List Char} (h : c ∈ part) (hc : c ∉ cs) :
    contains cs part = false := by
  refine eq_false_of_ne_true fun hcontains ↦ hc ?_
  obtain ⟨before, after, rfl⟩ := eq_append_of_contains hcontains
  simp [h]

theorem prefix_of_prefix_append_cons {p cs tail : List Char} {c : Char} (hc : c ∉ p)
    (h : p <+: cs ++ c :: tail) : p <+: cs := by
  obtain hp | ⟨more, rfl⟩ := List.prefix_or_prefix_of_prefix h (List.prefix_append cs (c :: tail))
  · exact hp
  · rw [List.prefix_append_right_inj] at h
    cases more with
    | nil => simp
    | cons d others =>
      obtain ⟨rfl, -⟩ := List.cons_prefix_cons.mp h
      simp at hc

/-- The characters up to one that fails a test, and that one with all after it. -/
theorem span_append {p : Char → Bool} {front : List Char} (hfront : ∀ c ∈ front, p c = true)
    {c : Char} (hc : p c = false) (rest : List Char) :
    (front ++ c :: rest).takeWhile p = front ∧ (front ++ c :: rest).dropWhile p = c :: rest := by
  rw [List.takeWhile_append_of_pos hfront, List.dropWhile_append_of_pos hfront]
  simp [hc]

/-! ### Words -/

theorem words_cons_blank {c : Char} (h : isBlank c = true) (rest : List Char) :
    words (c :: rest) = words rest := by
  rw [words.eq_def]
  simp [h]

theorem words_singleton {c : Char} (h : isBlank c = false) : words [c] = [[c]] := by
  simp [words, h]

theorem words_cons_before_blank {c d : Char} (hc : isBlank c = false) (hd : isBlank d = true)
    (rest : List Char) : words (c :: d :: rest) = [c] :: words rest := by
  rw [words]
  simp [hc, hd, words_cons_blank hd]

/-- A character that goes on into the next one is put before the first word. -/
theorem words_cons_cons {c d : Char} (hc : isBlank c = false) (hd : isBlank d = false)
    (rest : List Char) : ∃ first others, words (d :: rest) = first :: others ∧
      words (c :: d :: rest) = (c :: first) :: others := by
  have hsome : ∃ first others, words (d :: rest) = first :: others := by
    cases rest with
    | nil => exact ⟨[d], [], words_singleton hd⟩
    | cons e more =>
      rw [words]
      simp only [hd, Bool.false_eq_true, if_false]
      split
      · exact ⟨_, _, rfl⟩
      · split <;> exact ⟨_, _, rfl⟩
  obtain ⟨first, others, hwords⟩ := hsome
  refine ⟨first, others, hwords, ?_⟩
  rw [words]
  simp only [hc, hd, hwords, Bool.false_eq_true, if_false]

/-- A space separates words. -/
theorem words_append_space (before after : List Char) :
    words (before ++ ' ' :: after) = words before ++ words after := by
  induction before with
  | nil => exact words_cons_blank isBlank_space after
  | cons c rest ih =>
    rw [List.cons_append]
    cases hc : isBlank c with
    | true => rw [words_cons_blank hc, words_cons_blank hc, ih]
    | false =>
      cases rest with
      | nil =>
        rw [List.nil_append, words_cons_before_blank hc isBlank_space, words_singleton hc,
          List.singleton_append]
      | cons d others =>
        rw [List.cons_append] at ih ⊢
        cases hd : isBlank d with
        | true =>
          rw [words_cons_blank hd, words_cons_blank hd] at ih
          rw [words_cons_before_blank hc hd, words_cons_before_blank hc hd, ih, List.cons_append]
        | false =>
          obtain ⟨_, _, hwhole, hlonger⟩ := words_cons_cons hc hd (others ++ ' ' :: after)
          obtain ⟨_, _, hfirst, hlong⟩ := words_cons_cons hc hd others
          rw [hwhole, hfirst, List.cons_append, List.cons.injEq] at ih
          rw [hlonger, hlong, ih.1, ih.2, List.cons_append]

theorem words_join (parts : List (List Char)) :
    words (join [' '] parts) = parts.flatMap words := by
  induction parts with
  | nil => rfl
  | cons part rest ih =>
    cases rest with
    | nil => simp
    | cons next others =>
      rw [join_cons_cons, List.append_assoc, List.singleton_append, words_append_space, ih,
        ← List.flatMap_cons]

theorem words_word {word : List Char} (hne : word ≠ [])
    (hword : ∀ c ∈ word, isBlank c = false) : words word = [word] := by
  induction word with
  | nil => exact absurd rfl hne
  | cons c rest ih =>
    have hc := hword c List.mem_cons_self
    cases rest with
    | nil => exact words_singleton hc
    | cons d more =>
      have hrest := ih (List.cons_ne_nil d more) fun e he ↦ hword e (List.mem_cons_of_mem _ he)
      obtain ⟨first, others, hwords, hlonger⟩ :=
        words_cons_cons hc (hword d (List.mem_cons_of_mem _ List.mem_cons_self)) more
      rw [hwords, List.cons.injEq] at hrest
      rw [hlonger, hrest.1, hrest.2]

/-- The characters of a word stand in the text, and none is white space. -/
theorem mem_of_mem_words {cs word : List Char} (h : word ∈ words cs) {c : Char} (hc : c ∈ word) :
    c ∈ cs ∧ isBlank c = false := by
  fun_induction words cs generalizing word c with
  | case1 => cases h
  | case2 d rest hblank ih => exact (ih h hc).imp_left (List.mem_cons_of_mem _)
  | case3 d hblank =>
    obtain rfl := List.mem_singleton.mp h
    obtain rfl := List.mem_singleton.mp hc
    exact ⟨List.mem_cons_self, Bool.eq_false_iff.mpr hblank⟩
  | case4 d hblank e rest he ih =>
    obtain rfl | h := List.mem_cons.mp h
    · obtain rfl := List.mem_singleton.mp hc
      exact ⟨List.mem_cons_self, Bool.eq_false_iff.mpr hblank⟩
    · exact (ih h hc).imp_left (List.mem_cons_of_mem _)
  | case5 d hblank e rest he heq ih =>
    rw [heq] at h
    obtain rfl := List.mem_singleton.mp h
    obtain rfl := List.mem_singleton.mp hc
    exact ⟨List.mem_cons_self, Bool.eq_false_iff.mpr hblank⟩
  | case6 d hblank e rest he first others heq ih =>
    rw [heq] at h ih
    obtain rfl | h := List.mem_cons.mp h
    · obtain rfl | hc := List.mem_cons.mp hc
      · exact ⟨List.mem_cons_self, Bool.eq_false_iff.mpr hblank⟩
      · exact (ih List.mem_cons_self hc).imp_left (List.mem_cons_of_mem _)
    · exact (ih (List.mem_cons_of_mem _ h) hc).imp_left (List.mem_cons_of_mem _)

/-- A character that is not white space stands in a word. -/
theorem exists_mem_words {cs : List Char} {c : Char} (hc : c ∈ cs) (hblank : isBlank c = false) :
    ∃ word ∈ words cs, c ∈ word := by
  induction cs with
  | nil => cases hc
  | cons d rest ih =>
    cases hd : isBlank d with
    | true =>
      rw [words_cons_blank hd]
      obtain rfl | hc := List.mem_cons.mp hc
      · rw [hd] at hblank
        cases hblank
      · exact ih hc
    | false =>
      cases rest with
      | nil => exact ⟨[d], by rw [words_singleton hd]; exact List.mem_cons_self, hc⟩
      | cons e more =>
        cases he : isBlank e with
        | true =>
          rw [words_cons_before_blank hd he, ← words_cons_blank he]
          obtain rfl | hc := List.mem_cons.mp hc
          · exact ⟨[c], List.mem_cons_self, List.mem_cons_self⟩
          · obtain ⟨word, hword, hmem⟩ := ih hc
            exact ⟨word, List.mem_cons_of_mem _ hword, hmem⟩
        | false =>
          obtain ⟨first, others, hwords, hlonger⟩ := words_cons_cons hd he more
          rw [hlonger]
          obtain rfl | hc := List.mem_cons.mp hc
          · exact ⟨_, List.mem_cons_self, List.mem_cons_self⟩
          · obtain ⟨word, hword, hmem⟩ := ih hc
            rw [hwords] at hword
            obtain rfl | hword := List.mem_cons.mp hword
            · exact ⟨_, List.mem_cons_self, List.mem_cons_of_mem _ hmem⟩
            · exact ⟨word, List.mem_cons_of_mem _ hword, hmem⟩

theorem ne_nil_of_mem_words {cs word : List Char} (h : word ∈ words cs) : word ≠ [] := by
  fun_induction words cs generalizing word with
  | case1 => cases h
  | case2 d rest hblank ih => exact ih h
  | case3 d hblank =>
    rw [List.mem_singleton.mp h]
    exact List.cons_ne_nil _ _
  | case4 d hblank e rest he ih =>
    obtain rfl | h := List.mem_cons.mp h
    · exact List.cons_ne_nil _ _
    · exact ih h
  | case5 d hblank e rest he heq ih =>
    rw [heq] at h
    rw [List.mem_singleton.mp h]
    exact List.cons_ne_nil _ _
  | case6 d hblank e rest he first others heq ih =>
    rw [heq] at h ih
    obtain rfl | h := List.mem_cons.mp h
    · exact List.cons_ne_nil _ _
    · exact ih (List.mem_cons_of_mem _ h)

/-- A text that does not start with white space starts with its first word. -/
theorem head?_words_cons {c : Char} (hc : isBlank c = false) (rest : List Char) :
    ∃ word tail, (words (c :: rest)).head? = some (c :: word) ∧ rest = word ++ tail ∧
      ∀ d ∈ word, isBlank d = false := by
  induction rest generalizing c with
  | nil => exact ⟨[], [], by rw [words_singleton hc]; rfl, rfl, List.forall_mem_nil _⟩
  | cons d more ih =>
    cases hd : isBlank d with
    | true =>
      refine ⟨[], d :: more, ?_, rfl, List.forall_mem_nil _⟩
      rw [words_cons_before_blank hc hd]
      rfl
    | false =>
      obtain ⟨first, others, hwords, hcons⟩ := words_cons_cons hc hd more
      obtain ⟨word, tail, hhead, rfl, hword⟩ := ih hd
      rw [hwords, List.head?_cons, Option.some_inj] at hhead
      refine ⟨d :: word, tail, ?_, rfl, List.forall_mem_cons.mpr ⟨hd, hword⟩⟩
      rw [hcons, hhead]
      rfl

theorem isBlank_of_any {cs : List Char} (h : cs.any isBlank = false) :
    ∀ c ∈ cs, isBlank c = false := by
  simpa using h

/-! ### Single spaces -/

/-- Words with single spaces between them; all of them but the last end with one of the characters
`ends`. -/
inductive Spaced (ends : List Char) : List Char → Prop where
  | word {word : List Char} : word ≠ [] → (∀ c ∈ word, isBlank c = false) → Spaced ends word
  | append {word rest : List Char} : word ≠ [] → (∀ c ∈ word, isBlank c = false) →
      (∀ c ∈ word.getLast?, c ∈ ends) → Spaced ends rest → Spaced ends (word ++ ' ' :: rest)

section Spaced

variable {ends cs : List Char}

theorem Spaced.exists_cons (h : Spaced ends cs) :
    ∃ c rest, cs = c :: rest ∧ isBlank c = false := by
  cases h with
  | word hne hword | append hne hword =>
    obtain ⟨c, more, rfl⟩ := List.exists_cons_of_ne_nil hne
    exact ⟨c, _, rfl, hword c List.mem_cons_self⟩

theorem Spaced.collapse_eq (h : Spaced ends cs) : collapse cs = cs := by
  induction h with
  | word hne hword => rw [collapse, words_word hne hword, join_singleton]
  | append hne hword _ hrest ih =>
    rw [collapse] at ih ⊢
    rw [words_append_space, words_word hne hword]
    obtain ⟨c, more, rfl, _⟩ := hrest.exists_cons
    cases hmore : words (c :: more) with
    | nil =>
      rw [hmore] at ih
      cases ih
    | cons next others =>
      rw [List.singleton_append, join_cons_cons, ← hmore, ih, List.append_assoc,
        List.singleton_append]

/-- Every space follows one of the characters at the ends of words. -/
theorem Spaced.isChain (h : Spaced ends cs) : cs.IsChain fun c d ↦ d = ' ' → c ∈ ends := by
  have hvisible {word : List Char} (hword : ∀ c ∈ word, isBlank c = false) :
      word.IsChain fun c d ↦ d = ' ' → c ∈ ends := by
    refine (List.pairwise_of_forall_mem_list fun c _ d hd hspace ↦ ?_).isChain
    rw [hspace] at hd
    exact absurd (hword _ hd) (by decide)
  induction h with
  | word _ hword => exact hvisible hword
  | append _ hword hends hrest ih =>
    obtain ⟨first, more, rfl, hfirst⟩ := hrest.exists_cons
    refine List.isChain_append.mpr ⟨hvisible hword, List.isChain_cons.mpr ⟨?_, ih⟩, ?_⟩
    · rintro d ⟨⟩ rfl
      exact absurd hfirst (by decide)
    · exact fun c hc _ _ _ ↦ hends c hc

theorem Spaced.contains_eq_false (h : Spaced ends cs) {c : Char} (hc : c ∉ ends)
    (part : List Char) : contains cs (part ++ [c, ' ']) = false := by
  refine eq_false_of_ne_true fun hcontains ↦ hc ?_
  obtain ⟨before, after, rfl⟩ := eq_append_of_contains hcontains
  have hchain := h.isChain
  rw [List.append_assoc part, ← List.append_assoc before] at hchain
  exact (List.isChain_append_cons_cons.mp hchain).2.1 rfl

end Spaced

/-! ### Trimming -/

theorem trim_eq_self {cs : List Char} (hhead : ∀ c ∈ cs.head?, isBlank c = false)
    (hlast : ∀ c ∈ cs.getLast?, isBlank c = false) : trim cs = cs := by
  have hstart (list : List Char) (h : ∀ c ∈ list.head?, isBlank c = false) :
      list.dropWhile isBlank = list := by
    cases list with
    | nil => rfl
    | cons c rest => rw [List.dropWhile_cons, h c rfl]; rfl
  rw [trim, trimStart, trimEnd, dropEndWhile, hstart cs hhead, hstart cs.reverse,
    List.reverse_reverse]
  rwa [List.head?_reverse]

theorem Spaced.isBlank_getLast {ends cs : List Char} (h : Spaced ends cs) :
    ∀ c ∈ cs.getLast?, isBlank c = false := by
  induction h with
  | word _ hword => exact fun c hc ↦ hword c (List.mem_of_getLast? hc)
  | append _ _ _ hrest ih =>
    obtain ⟨c, more, rfl, _⟩ := hrest.exists_cons
    simpa using ih

theorem Spaced.trim_eq {ends cs : List Char} (h : Spaced ends cs) : trim cs = cs := by
  obtain ⟨c, rest, rfl, hc⟩ := h.exists_cons
  exact trim_eq_self (by simpa using hc) h.isBlank_getLast

theorem trimEnd_append_of_blank {tail : List Char} (h : ∀ c ∈ tail, isBlank c = true)
    (cs : List Char) : trimEnd (cs ++ tail) = trimEnd cs := by
  rw [trimEnd, trimEnd, dropEndWhile, dropEndWhile, List.reverse_append,
    List.dropWhile_append_of_pos fun c hc ↦ h c (List.mem_reverse.mp hc)]

theorem trim_append_of_blank_right {tail : List Char} (h : ∀ c ∈ tail, isBlank c = true)
    (cs : List Char) : trim (cs ++ tail) = trim cs := by
  unfold trim trimStart
  rw [List.dropWhile_append]
  split
  next hempty => rw [List.isEmpty_iff.mp hempty, List.dropWhile_eq_nil_iff.mpr h]
  next => exact trimEnd_append_of_blank h _

theorem trimEnd_concat_of_blank {c : Char} (h : isBlank c = true) (cs : List Char) :
    trimEnd (cs ++ [c]) = trimEnd cs :=
  trimEnd_append_of_blank (List.forall_mem_singleton.mpr h) cs

theorem trim_concat_of_blank {c : Char} (h : isBlank c = true) (cs : List Char) :
    trim (cs ++ [c]) = trim cs :=
  trim_append_of_blank_right (List.forall_mem_singleton.mpr h) cs

theorem trim_append_of_blank {front : List Char} (h : ∀ c ∈ front, isBlank c = true)
    (cs : List Char) : trim (front ++ cs) = trim cs := by
  rw [trim, trim, trimStart, trimStart, List.dropWhile_append_of_pos h]

theorem trimStart_append_cons {d : Char} (hd : isBlank d = false) (before after : List Char) :
    trimStart (before ++ d :: after) = trimStart before ++ d :: after := by
  induction before with
  | nil => simp [trimStart, hd]
  | cons c rest ih =>
    rw [List.cons_append, trimStart, trimStart, List.dropWhile_cons, List.dropWhile_cons]
    split
    · exact ih
    · rfl

theorem trimEnd_append_cons {d : Char} (hd : isBlank d = false) (before after : List Char) :
    trimEnd (before ++ d :: after) = before ++ d :: trimEnd after := by
  have hreverse := trimStart_append_cons hd after.reverse before.reverse
  rw [trimStart] at hreverse
  rw [trimEnd, dropEndWhile, List.reverse_append, List.reverse_cons, List.append_assoc,
    List.singleton_append, hreverse, List.reverse_append, List.reverse_cons, List.reverse_reverse,
    List.append_assoc, List.singleton_append]
  rfl

/-- Trimming goes no further than to a character that is not white space. -/
theorem trim_append_cons {d : Char} (hd : isBlank d = false) (before after : List Char) :
    trim (before ++ d :: after) = trimStart before ++ d :: trimEnd after := by
  rw [trim, trimStart_append_cons hd, trimEnd_append_cons hd]

theorem trimEnd_of_blank {cs : List Char} (h : ∀ c ∈ cs, isBlank c = true) : trimEnd cs = [] := by
  rw [trimEnd, dropEndWhile, List.reverse_eq_nil_iff, List.dropWhile_eq_nil_iff]
  exact fun c hc ↦ h c (List.mem_reverse.mp hc)

theorem trim_of_blank {cs : List Char} (h : ∀ c ∈ cs, isBlank c = true) : trim cs = [] := by
  rw [trim, trimStart, List.dropWhile_eq_nil_iff.mpr h]
  rfl

theorem exists_eq_trimEnd_append (cs : List Char) :
    ∃ tail, (∀ c ∈ tail, isBlank c = true) ∧ cs = trimEnd cs ++ tail := by
  refine ⟨(cs.reverse.takeWhile isBlank).reverse,
    fun c hc ↦ List.mem_takeWhile_imp (List.mem_reverse.mp hc), ?_⟩
  rw [trimEnd, dropEndWhile, ← List.reverse_append, List.takeWhile_append_dropWhile,
    List.reverse_reverse]

theorem trim_trimEnd (cs : List Char) : trim (trimEnd cs) = trim cs := by
  obtain ⟨tail, hblank, heq⟩ := exists_eq_trimEnd_append cs
  conv_rhs => rw [heq, trim_append_of_blank_right hblank]

theorem trim_trim (cs : List Char) : trim (trim cs) = trim cs := by
  have hstart : trimStart (trimStart cs) = trimStart cs := List.dropWhile_idempotent _ cs
  calc trim (trim cs) = trim (trimStart cs) := trim_trimEnd (trimStart cs)
    _ = trim cs := by rw [trim, hstart, trim]

/-- Trimming a text with white space around it leaves the text. -/
theorem trim_between {before cs after : List Char} (hbefore : ∀ c ∈ before, isBlank c = true)
    (hafter : ∀ c ∈ after, isBlank c = true)
    (hhead : ∃ c rest, cs = c :: rest ∧ isBlank c = false)
    (hlast : ∃ front d, cs = front ++ [d] ∧ isBlank d = false) :
    trim (before ++ (cs ++ after)) = cs := by
  obtain ⟨c, rest, hcons, hc⟩ := hhead
  obtain ⟨front, d, hconcat, hd⟩ := hlast
  have hstart : trimStart (before ++ (cs ++ after)) = cs ++ after := by
    rw [hcons, List.cons_append, trimStart_append_cons hc, trimStart,
      List.dropWhile_eq_nil_iff.mpr hbefore, List.nil_append]
  rw [trim, hstart, hconcat, List.append_assoc, List.singleton_append, trimEnd_append_cons hd,
    trimEnd_of_blank hafter]

/-- Trimming leaves a character that is not white space. -/
theorem trim_ne_nil {cs : List Char} {c : Char} (hc : c ∈ cs) (h : isBlank c = false) :
    trim cs ≠ [] := by
  have hkept (list : List Char) (hmem : c ∈ list) : c ∈ list.dropWhile isBlank := by
    rw [← List.takeWhile_append_dropWhile (p := isBlank) (l := list), List.mem_append] at hmem
    rcases hmem with hmem | hmem
    · rw [List.mem_takeWhile_imp hmem] at h
      cases h
    · exact hmem
  have hstart : c ∈ (trimStart cs).reverse := List.mem_reverse.mpr (hkept cs hc)
  exact List.ne_nil_of_mem (List.mem_reverse.mpr (hkept _ hstart))

/-- Parts that neither start nor end with white space are joined to such a text. -/
theorem trim_join {parts : List (List Char)} (hne : ∀ part ∈ parts, part ≠ [])
    (hhead : ∀ part ∈ parts, ∀ c ∈ part.head?, isBlank c = false)
    (hlast : ∀ part ∈ parts, ∀ c ∈ part.getLast?, isBlank c = false) :
    trim (join [' '] parts) = join [' '] parts := by
  refine trim_eq_self ?_ ?_
  · cases parts with
    | nil => simp
    | cons part rest =>
      have hpart : part.head? = (join [' '] (part :: rest)).head? := by
        obtain ⟨c, more, rfl⟩ := List.exists_cons_of_ne_nil (hne part List.mem_cons_self)
        cases rest <;> simp
      rw [← hpart]
      exact hhead part List.mem_cons_self
  · induction parts with
    | nil => simp
    | cons part rest ih =>
      cases rest with
      | nil =>
        rw [join_singleton]
        exact hlast part List.mem_cons_self
      | cons next others =>
        have hjoin : join [' '] (next :: others) ≠ [] := by
          obtain ⟨c, more, rfl⟩ := List.exists_cons_of_ne_nil
            (hne next (List.mem_cons_of_mem _ List.mem_cons_self))
          cases others <;> simp
        rw [join_cons_cons, List.getLast?_append_of_ne_nil _ hjoin]
        exact ih (fun p hp ↦ hne p (List.mem_cons_of_mem _ hp))
          (fun p hp ↦ hhead p (List.mem_cons_of_mem _ hp))
          (fun p hp ↦ hlast p (List.mem_cons_of_mem _ hp))

end SuiteMigration.Chars
