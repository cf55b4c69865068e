import SuiteMigration.Java.CallChain
import SuiteMigration.Proofs.Java.Step
import SuiteMigration.Proofs.Text.Words

/-!
The grammar of call chains. A chain is a sequence of links with points between them; a link is a
name, perhaps with an argument list, and white space may stand around all parts. The reader of
chains accepts exactly the texts of this grammar and gives their links.
-/

set_option autoImplicit false
set_option relaxedAutoImplicit false

namespace SuiteMigration.Java

open SuiteMigration.Text

/-! ### The grammar -/

/-- White space between the parts of a chain. -/
def IsGap (cs : List Char) : Prop :=
  ∀ c ∈ cs, isAsciiBlank c = true

structure IsChainWord (cs : List Char) : Prop where
  nonempty : cs ≠ []
  chars : ∀ c ∈ cs, isChainNameChar c = true

/-- The text of a name: a word other than `new`, or `new` and the type of an object. -/
inductive NameText : List Char → String → Prop where
  | word {name : List Char} (hname : IsChainWord name) (hnew : name ≠ "new".toList) :
      NameText name (String.ofList name)
  | construction {gap type : List Char} (hgap : IsGap gap) (hne : gap ≠ [])
      (htype : IsChainWord type) :
      NameText ("new".toList ++ (gap ++ type)) ("new " ++ String.ofList type)

/-- The text of a link, with the white space around it. -/
inductive LinkText : List Char → Link → Prop where
  | reference {lead text trail : List Char} {name : String} (hlead : IsGap lead)
      (hname : NameText text name) (htrail : IsGap trail) :
      LinkText (lead ++ (text ++ trail)) ⟨name, none⟩
  | call {lead text gap inside trail : List Char} {name : String} (hlead : IsGap lead)
      (hname : NameText text name) (hgap : IsGap gap) (hinside : Enclosed '(' ')' inside)
      (htrail : IsGap trail) :
      LinkText (lead ++ (text ++ (gap ++ '(' :: (inside ++ ')' :: trail))))
        ⟨name, some (splitArguments (String.ofList inside))⟩

/-- The text of a chain. -/
inductive ChainText : List Char → List Link → Prop where
  | last {text : List Char} {link : Link} (hlink : LinkText text link) : ChainText text [link]
  | more {text rest : List Char} {link : Link} {links : List Link} (hlink : LinkText text link)
      (hrest : ChainText rest links) : ChainText (text ++ '.' :: rest) (link :: links)

/-! ### Names -/

theorem isChainNameChar_of_isAsciiBlank {c : Char} (h : isAsciiBlank c = true) :
    isChainNameChar c = false := by
  simp only [isAsciiBlank, Bool.or_eq_true, beq_iff_eq] at h
  rcases h with (((rfl | rfl) | rfl) | rfl) | rfl <;> decide

/-- The text that satisfies a test, up to a text that does not go on with it. -/
theorem span_of_head? {p : Char → Bool} {front rest : List Char}
    (hfront : ∀ c ∈ front, p c = true) (hrest : ∀ c ∈ rest.head?, p c = false) :
    (front ++ rest).takeWhile p = front ∧ (front ++ rest).dropWhile p = rest := by
  cases rest with
  | nil =>
    rw [List.append_nil, List.takeWhile_eq_self_iff, List.dropWhile_eq_nil_iff]
    exact ⟨hfront, hfront⟩
  | cons c more => exact Chars.span_append hfront (hrest c rfl) more

theorem head?_dropWhile {p : Char → Bool} (cs : List Char) :
    ∀ c ∈ (cs.dropWhile p).head?, p c = false := by
  intro c hc
  have hnot := List.head?_dropWhile_not p cs
  rw [hc] at hnot
  simpa using hnot

/-- Where a gap ends, a text follows that does not start with white space. -/
theorem exists_gap (cs : List Char) :
    ∃ gap, cs = gap ++ skipAsciiBlanks cs ∧ IsGap gap ∧
      ∀ c ∈ (skipAsciiBlanks cs).head?, isAsciiBlank c = false :=
  ⟨cs.takeWhile isAsciiBlank, List.takeWhile_append_dropWhile.symm,
    fun _ hc ↦ List.mem_takeWhile_imp hc, head?_dropWhile cs⟩

theorem skipAsciiBlanks_append {gap rest : List Char} (hgap : IsGap gap)
    (hrest : ∀ c ∈ rest.head?, isAsciiBlank c = false) :
    skipAsciiBlanks (gap ++ rest) = rest :=
  (span_of_head? hgap hrest).2

theorem skipAsciiBlanks_eq_self {cs : List Char} (h : ∀ c ∈ cs.head?, isAsciiBlank c = false) :
    skipAsciiBlanks cs = cs :=
  have hgap : IsGap [] := List.forall_mem_nil _
  skipAsciiBlanks_append hgap h

/-- A word starts with none of the characters that are skipped. -/
theorem IsChainWord.head? {word : List Char} (h : IsChainWord word) (rest : List Char) :
    ∀ c ∈ (word ++ rest).head?, isAsciiBlank c = false := by
  obtain ⟨d, more, rfl⟩ := List.exists_cons_of_ne_nil h.nonempty
  rintro c ⟨⟩
  refine Bool.eq_false_iff.mpr fun hblank ↦ ?_
  have hchar := h.chars d List.mem_cons_self
  rw [isChainNameChar_of_isAsciiBlank hblank] at hchar
  cases hchar

theorem ofList_beq_new {cs : List Char} (h : cs ≠ "new".toList) :
    (String.ofList cs == "new") = false := by
  refine beq_eq_false_iff_ne.mpr fun heq ↦ h ?_
  rw [← heq, String.toList_ofList]

theorem isEmpty_ofList {cs : List Char} (h : cs ≠ []) : (String.ofList cs).isEmpty = false := by
  simpa using h

/-- A name is read from its text if it does not go on behind it. -/
theorem chainName?_append {lead text rest : List Char} {name : String} (hlead : IsGap lead)
    (hname : NameText text name) (hrest : ∀ c ∈ rest.head?, isChainNameChar c = false) :
    chainName? (lead ++ (text ++ rest)) = some (name, rest) := by
  unfold chainName?
  cases hname with
  | word hname hnew =>
    obtain ⟨htake, hdrop⟩ := span_of_head? hname.chars hrest
    rw [skipAsciiBlanks_append hlead (hname.head? rest)]
    dsimp only
    rw [htake, hdrop, isEmpty_ofList hname.nonempty, ofList_beq_new hnew]
    rfl
  | @construction gap type hgap hne htype =>
    have hword : IsChainWord "new".toList := ⟨by decide, List.all_eq_true.mp (by decide)⟩
    have hbehind : ∀ c ∈ (gap ++ (type ++ rest)).head?, isChainNameChar c = false := by
      obtain ⟨d, more, rfl⟩ := List.exists_cons_of_ne_nil hne
      rintro c ⟨⟩
      exact isChainNameChar_of_isAsciiBlank (hgap d List.mem_cons_self)
    obtain ⟨htake, hdrop⟩ := span_of_head? hword.chars hbehind
    obtain ⟨htype', hrest'⟩ := span_of_head? htype.chars hrest
    rw [List.append_assoc, List.append_assoc, skipAsciiBlanks_append hlead (hword.head? _)]
    dsimp only
    rw [htake, hdrop, skipAsciiBlanks_append hgap (htype.head? rest), htype', hrest',
      isEmpty_ofList htype.nonempty]
    rfl

/-- The word with which a text starts, if it starts with one. -/
theorem exists_chainWord {cs : List Char}
    (h : (String.ofList (cs.takeWhile isChainNameChar)).isEmpty ≠ true) :
    IsChainWord (cs.takeWhile isChainNameChar) ∧
      cs = cs.takeWhile isChainNameChar ++ cs.dropWhile isChainNameChar :=
  ⟨⟨by simpa using h, fun _ hc ↦ List.mem_takeWhile_imp hc⟩,
    List.takeWhile_append_dropWhile.symm⟩

/-- What is read as a name is the text of one. -/
theorem chainName?_eq_some {cs rest : List Char} {name : String}
    (h : chainName? cs = some (name, rest)) :
    ∃ lead text, cs = lead ++ (text ++ rest) ∧ IsGap lead ∧ NameText text name := by
  obtain ⟨lead, hlead, hgap, -⟩ := exists_gap cs
  unfold chainName? at h
  dsimp only at h
  generalize skipAsciiBlanks cs = start at h hlead
  split at h
  next => cases h
  next hempty =>
  obtain ⟨hword, hstart⟩ := exists_chainWord hempty
  split at h
  next hnew =>
    split at h
    next => cases h
    next htype =>
      cases h
      obtain ⟨gap, hbehind, hblank, -⟩ := exists_gap (start.dropWhile isChainNameChar)
      obtain ⟨htypeWord, hskipped⟩ := exists_chainWord htype
      have hne : gap ≠ [] := by
        -- without a gap the word would have gone on
        rintro rfl
        obtain ⟨d, more, hd⟩ := List.exists_cons_of_ne_nil htypeWord.nonempty
        have hstop := head?_dropWhile (p := isChainNameChar) start d
          (by rw [hbehind, List.nil_append, hskipped, hd]; rfl)
        rw [htypeWord.chars d (hd ▸ List.mem_cons_self)] at hstop
        cases hstop
      have hname : start.takeWhile isChainNameChar = "new".toList := by
        rw [← eq_of_beq hnew, String.toList_ofList]
      refine ⟨lead, _, ?_, hgap, .construction hblank hne htypeWord⟩
      rw [List.append_assoc, List.append_assoc, ← hskipped, ← hbehind, ← hname, ← hstart]
      exact hlead
  next hnew =>
    cases h
    refine ⟨lead, _, by rw [← hstart]; exact hlead, hgap, .word hword fun heq ↦ hnew ?_⟩
    rw [heq]
    rfl

/-! ### Links and chains -/

/-- What can follow the text of a link: nothing, or a point. -/
def EndsLink (tail : List Char) : Prop :=
  tail = [] ∨ ∃ rest, tail = '.' :: rest

theorem EndsLink.head? {tail : List Char} (h : EndsLink tail) :
    ∀ c ∈ tail.head?, isAsciiBlank c = false ∧ isChainNameChar c = false ∧ c ≠ '(' := by
  rcases h with rfl | ⟨rest, rfl⟩
  · nofun
  · rintro c ⟨⟩
    decide

theorem head?_gap_append {gap tail : List Char} (hgap : IsGap gap)
    (htail : ∀ c ∈ tail.head?, isChainNameChar c = false) :
    ∀ c ∈ (gap ++ tail).head?, isChainNameChar c = false := by
  cases gap with
  | nil => exact htail
  | cons d more =>
    rintro c ⟨⟩
    exact isChainNameChar_of_isAsciiBlank (hgap d List.mem_cons_self)

theorem enclosed?_parentheses_iff {cs inside rest : List Char} :
    enclosed? '(' ')' ('(' :: cs) = some ⟨inside, rest⟩ ↔
      cs = inside ++ ')' :: rest ∧ Enclosed '(' ')' inside :=
  enclosed?_cons_eq_some_iff (by decide) (by decide) (by decide) (by decide)

section Link

variable {cs rest : List Char} {name : String}

theorem chainLink?_of_call {more : List Char} (h : chainName? cs = some (name, rest))
    (hskip : skipAsciiBlanks rest = '(' :: more) :
    chainLink? cs = (enclosed? '(' ')' ('(' :: more)).map fun cut ↦
      (⟨name, some (splitArguments (String.ofList cut.before))⟩, cut.after) := by
  unfold chainLink?
  simp only [h, Option.bind_eq_bind, Option.bind_some, hskip]
  cases enclosed? '(' ')' ('(' :: more) <;> rfl

theorem chainLink?_of_reference (h : chainName? cs = some (name, rest))
    (hskip : (skipAsciiBlanks rest).head? ≠ some '(') :
    chainLink? cs = some (⟨name, none⟩, skipAsciiBlanks rest) := by
  unfold chainLink?
  simp only [h, Option.bind_eq_bind, Option.bind_some]
  split
  next more heq =>
    rw [heq] at hskip
    exact absurd rfl hskip
  next => rfl

end Link

/-- A link and what follows it, without the white space between them. -/
def linkAndTail? (cs : List Char) : Option (Link × List Char) :=
  (chainLink? cs).map fun found ↦ (found.1, skipAsciiBlanks found.2)

theorem linkAndTail?_append {text tail : List Char} {link : Link} (h : LinkText text link)
    (htail : EndsLink tail) : linkAndTail? (text ++ tail) = some (link, tail) := by
  have hblank : ∀ c ∈ tail.head?, isAsciiBlank c = false := fun c hc ↦ (htail.head? c hc).1
  unfold linkAndTail?
  cases h with
  | @reference lead name trail _ hlead hname htrail =>
    have hread := chainName?_append hlead hname
      (head?_gap_append htrail fun c hc ↦ (htail.head? c hc).2.1)
    have hskip := skipAsciiBlanks_append htrail hblank
    have hopen : tail.head? ≠ some '(' := fun hc ↦ (htail.head? _ hc).2.2 rfl
    rw [List.append_assoc, List.append_assoc,
      chainLink?_of_reference hread (by rw [hskip]; exact hopen), hskip, Option.map_some,
      skipAsciiBlanks_eq_self hblank]
  | @call lead name gap inside trail _ hlead hname hgap hinside htrail =>
    have hhead : ∀ c ∈ (gap ++ '(' :: (inside ++ ')' :: (trail ++ tail))).head?,
        isChainNameChar c = false := head?_gap_append hgap (by rintro c ⟨⟩; decide)
    have hread := chainName?_append hlead hname hhead
    have hskip : skipAsciiBlanks (gap ++ '(' :: (inside ++ ')' :: (trail ++ tail))) =
        '(' :: (inside ++ ')' :: (trail ++ tail)) :=
      skipAsciiBlanks_append hgap (by rintro c ⟨⟩; decide)
    have hcut := enclosed?_parentheses_iff.mpr
      ⟨rfl (a := inside ++ ')' :: (trail ++ tail)), hinside⟩
    simp only [List.append_assoc, List.cons_append]
    rw [chainLink?_of_call hread hskip, hcut, Option.map_some, Option.map_some,
      skipAsciiBlanks_append htrail hblank]

theorem linkAndTail?_eq_some {cs tail : List Char} {link : Link}
    (h : linkAndTail? cs = some (link, tail)) :
    ∃ text, cs = text ++ tail ∧ LinkText text link := by
  obtain ⟨⟨_, rest⟩, hlink, hpair⟩ := Option.map_eq_some_iff.mp h
  obtain ⟨rfl, rfl⟩ := Prod.mk.inj hpair
  obtain ⟨trail, hrest, htrail, -⟩ := exists_gap rest
  cases hname : chainName? cs with
  | none =>
    unfold chainLink? at hlink
    rw [hname] at hlink
    cases hlink
  | some found =>
    obtain ⟨name, behind⟩ := found
    obtain ⟨lead, text, hcs, hlead, htext⟩ := chainName?_eq_some hname
    obtain ⟨gap, hbehind, hgap, -⟩ := exists_gap behind
    by_cases hopen : (skipAsciiBlanks behind).head? = some '('
    · obtain ⟨more, hmore⟩ := List.head?_eq_some_iff.mp hopen
      rw [chainLink?_of_call hname hmore] at hlink
      obtain ⟨⟨inside, after⟩, hcut, hpair⟩ := Option.map_eq_some_iff.mp hlink
      obtain ⟨rfl, rfl⟩ := Prod.mk.inj hpair
      obtain ⟨rfl, hinside⟩ := enclosed?_parentheses_iff.mp hcut
      refine ⟨_, ?_, .call hlead htext hgap hinside htrail⟩
      simp only [List.append_assoc, List.cons_append]
      rw [← hrest, ← hmore, ← hbehind]
      exact hcs
    · rw [chainLink?_of_reference hname hopen] at hlink
      cases hlink
      refine ⟨_, ?_, .reference hlead htext hgap⟩
      have hagain : skipAsciiBlanks (skipAsciiBlanks behind) = skipAsciiBlanks behind :=
        skipAsciiBlanks_eq_self (head?_dropWhile behind)
      dsimp only
      rw [hagain, List.append_assoc, List.append_assoc, ← hbehind]
      exact hcs

theorem chainFrom_succ (fuel : Nat) (cs : List Char) :
    chainFrom (fuel + 1) cs = (linkAndTail? cs).bind fun found ↦
      match found.2 with
      | [] => some [found.1]
      | '.' :: more => (chainFrom fuel more).map (found.1 :: ·)
      | _ => none := by
  rw [chainFrom, linkAndTail?]
  cases hlink : chainLink? cs with
  | none => rfl
  | some found =>
    simp only [Option.bind_eq_bind, Option.bind_some, Option.map_some]
    generalize skipAsciiBlanks found.2 = tail
    cases tail with
    | nil => rfl
    | cons c more =>
      by_cases hdot : c = '.'
      · subst hdot
        exact (Option.map_eq_bind ..).symm
      · simp [hdot]

/-- The reader of chains, given enough fuel, reads the texts of chains and no others. -/
theorem chainFrom_eq_some_iff {fuel : Nat} {cs : List Char} {links : List Link} :
    chainFrom fuel cs = some links ↔ ChainText cs links ∧ links.length ≤ fuel := by
  induction fuel generalizing cs links with
  | zero =>
    refine ⟨nofun, fun ⟨h, hlength⟩ ↦ ?_⟩
    cases h <;> cases hlength
  | succ fuel ih =>
    rw [chainFrom_succ]
    constructor
    · intro h
      obtain ⟨⟨link, tail⟩, hlink, htail⟩ := Option.bind_eq_some_iff.mp h
      obtain ⟨text, rfl, htext⟩ := linkAndTail?_eq_some hlink
      split at htail
      next hnil =>
        cases htail
        obtain rfl : tail = [] := hnil
        rw [List.append_nil]
        exact ⟨.last htext, Nat.le_add_left 1 fuel⟩
      next more hmore =>
        obtain rfl : tail = '.' :: more := hmore
        obtain ⟨others, hothers, rfl⟩ := Option.map_eq_some_iff.mp htail
        obtain ⟨hchain, hlength⟩ := ih.mp hothers
        exact ⟨.more htext hchain, Nat.succ_le_succ hlength⟩
      next => cases htail
    · rintro ⟨h, hlength⟩
      cases h with
      | last htext =>
        have hread := linkAndTail?_append htext (Or.inl rfl : EndsLink [])
        rw [List.append_nil] at hread
        rw [hread]
        rfl
      | more htext hchain =>
        rw [linkAndTail?_append htext (Or.inr ⟨_, rfl⟩)]
        exact Option.map_eq_some_iff.mpr
          ⟨_, ih.mpr ⟨hchain, Nat.le_of_succ_le_succ hlength⟩, rfl⟩

theorem NameText.ne_nil {text : List Char} {name : String} (h : NameText text name) :
    text ≠ [] := by
  cases h with
  | word hname => exact hname.nonempty
  | construction => exact List.cons_ne_nil _ _

theorem LinkText.length_pos {text : List Char} {link : Link} (h : LinkText text link) :
    0 < text.length := by
  have hname : ∃ lead name rest, text = lead ++ (name ++ rest) ∧ name ≠ [] := by
    cases h with
    | reference _ hname => exact ⟨_, _, _, rfl, hname.ne_nil⟩
    | call _ hname => exact ⟨_, _, _, rfl, hname.ne_nil⟩
  obtain ⟨lead, name, rest, rfl, hne⟩ := hname
  have hpos := List.length_pos_iff.mpr hne
  simp only [List.length_append]
  omega

theorem ChainText.length_le {cs : List Char} {links : List Link} (h : ChainText cs links) :
    links.length ≤ cs.length := by
  induction h with
  | last hlink => exact hlink.length_pos
  | more hlink _ ih =>
    have hpos := hlink.length_pos
    simp only [List.length_append, List.length_cons]
    omega

/-- The links of an expression are those of its text, less the leading `this`. -/
theorem callChain?_eq_some_iff {expr : String} {links : List Link} :
    callChain? expr = some links ↔ ∃ all, ChainText expr.toList all ∧ dropThis all = links := by
  unfold callChain?
  dsimp only
  rw [Option.map_eq_some_iff]
  refine exists_congr fun all ↦ and_congr_left' ?_
  rw [chainFrom_eq_some_iff]
  exact and_iff_left_of_imp fun h ↦ Nat.le_succ_of_le h.length_le

/-- A text is the text of one chain at most. -/
theorem ChainText.unique {cs : List Char} {links others : List Link} (h : ChainText cs links)
    (hothers : ChainText cs others) : links = others := by
  have hlinks := chainFrom_eq_some_iff.mpr ⟨h, h.length_le⟩
  have hread := chainFrom_eq_some_iff.mpr ⟨hothers, hothers.length_le⟩
  exact Option.some.inj (hlinks.symm.trans hread)

/-! ### Arguments -/

theorem length_trim_le (cs : List Char) : (Chars.trim cs).length ≤ cs.length := by
  have hdrop (ds : List Char) : (ds.dropWhile isBlank).length ≤ ds.length :=
    (List.dropWhile_sublist _).length_le
  calc (Chars.trim cs).length = ((Chars.trimStart cs).reverse.dropWhile isBlank).length :=
        List.length_reverse
    _ ≤ (Chars.trimStart cs).reverse.length := hdrop _
    _ = (Chars.trimStart cs).length := List.length_reverse
    _ ≤ cs.length := hdrop cs

theorem length_le_of_mem_argumentsFrom {q : Quotation} {depth : Int} {current cs arg : List Char}
    (h : arg ∈ argumentsFrom q depth current cs) : arg.length ≤ current.length + cs.length := by
  have htrim (ds : List Char) : (Chars.trim ds.reverse).length ≤ ds.length :=
    (length_trim_le ds.reverse).trans_eq List.length_reverse
  induction cs generalizing q depth current with
  | nil =>
    change arg ∈ if (Chars.trim current.reverse).isEmpty then [] else [_] at h
    split at h
    · cases h
    · rw [List.mem_singleton.mp h]
      exact htrim current
  | cons c rest ih =>
    unfold argumentsFrom at h
    split at h
    · obtain rfl | h := List.mem_cons.mp h
      · exact Nat.le_add_right_of_le (htrim current)
      · have hlater := ih h
        simp only [List.length_nil, List.length_cons] at hlater ⊢
        omega
    · have hlater := ih h
      simp only [List.length_cons] at hlater ⊢
      omega

theorem LinkText.length_arg_lt {text : List Char} {link : Link} (h : LinkText text link)
    {args : List String} (hargs : link.args? = some args) {arg : String} (harg : arg ∈ args) :
    arg.length < text.length := by
  cases h with
  | reference => cases hargs
  | call =>
    cases hargs
    obtain ⟨chars, hchars, rfl⟩ := List.mem_map.mp harg
    rw [String.toList_ofList] at hchars
    have hlength := length_le_of_mem_argumentsFrom hchars
    simp only [List.length_append, List.length_cons, List.length_nil, String.length_ofList]
      at hlength ⊢
    omega

/-- An argument of a link is shorter than the chain. -/
theorem ChainText.length_arg_lt {cs : List Char} {links : List Link} (h : ChainText cs links)
    {link : Link} (hlink : link ∈ links) {args : List String} (hargs : link.args? = some args)
    {arg : String} (harg : arg ∈ args) : arg.length < cs.length := by
  induction h with
  | last htext =>
    obtain rfl := List.mem_singleton.mp hlink
    exact htext.length_arg_lt hargs harg
  | more htext _ ih =>
    rw [List.length_append, List.length_cons]
    obtain rfl | hlink := List.mem_cons.mp hlink
    · exact Nat.lt_add_right _ (htext.length_arg_lt hargs harg)
    · have hlater := ih hlink
      omega

end SuiteMigration.Java
