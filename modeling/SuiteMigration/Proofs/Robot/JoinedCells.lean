import SuiteMigration.Proofs.Robot.Cell

/-!
Cells that are put together without a separator. Each text is escaped on its own, so nothing guards
the place where two of them meet: a marker at the end of one text and the start of the next can make
up the variable for a space, or the whole can be the variable for the empty text. Where they do not,
the texts are read back one after the other.
-/

set_option autoImplicit false
set_option relaxedAutoImplicit false

namespace SuiteMigration.Robot

open SuiteMigration.Text

/-- What follows the marker in the variable for the empty text. -/
def emptyReference : List Char :=
  "\x7bEMPTY\x7d".toList

theorem toList_emptyCell : emptyCell.toList = '$' :: emptyReference := rfl

/-- Texts escaped one by one and put together. -/
def joinedCells (texts : List (List Char)) : List Char :=
  texts.flatMap (escapeFrom true)

/-- The cell for texts that are escaped one by one. -/
def joinedCell (texts : List (List Char)) : String :=
  if joinedCells texts = [] then emptyCell else String.ofList (joinedCells texts)

/-- Where texts meet, a variable for a space arises. -/
def MakeSpace (texts : List (List Char)) : Prop :=
  ∃ before after, texts = before ++ after ∧ before.flatten.getLast? = some '$' ∧
    spaceReference <+: after.flatten

/-- The texts together look like the variable for the empty text. -/
def MakeEmpty (texts : List (List Char)) : Prop :=
  ∃ before after, texts = before ++ after ∧ before.flatten = ['$'] ∧ after.flatten = emptyReference

/-- No variable arises where texts meet. -/
def Seamless (texts : List (List Char)) : Prop :=
  ¬ MakeSpace texts ∧ ¬ MakeEmpty texts

/-! ### Characters that are never escaped -/

/-- A character that is written as it is, wherever it stands. -/
def IsOrdinary (c : Char) : Prop :=
  ∀ isFirst rest, escapeChar isFirst c rest = [c]

/-- A character that is escaped somewhere. -/
def isEscapable (c : Char) : Bool :=
  c == '\\' || c == '\n' || c == '\t' || c == '#' || c == ' ' || isVariableMarker c

theorem isOrdinary_of_isEscapable {c : Char} (h : isEscapable c = false) : IsOrdinary c := by
  intro isFirst rest
  simp only [isEscapable, Bool.or_eq_false_iff] at h
  obtain ⟨⟨⟨⟨⟨hbackslash, hfeed⟩, htab⟩, hcomment⟩, hspace⟩, hmarker⟩ := h
  simp [escapeChar, hbackslash, hfeed, htab, hcomment, hmarker, hspace]

theorem isOrdinary_of_all {cs : List Char} (h : cs.all (!isEscapable ·) = true) :
    ∀ c ∈ cs, IsOrdinary c :=
  fun c hc ↦ isOrdinary_of_isEscapable (by simpa using List.all_eq_true.mp h c hc)

theorem IsOrdinary.ne {c : Char} (h : IsOrdinary c) : c ≠ '\\' ∧ c ≠ '$' := by
  constructor
  · rintro rfl
    exact absurd (h true []) (by decide)
  · rintro rfl
    exact absurd (h true ['\x7b']) (by decide)

theorem isOrdinary_of_mem_spaceReference : ∀ c ∈ spaceReference, IsOrdinary c :=
  isOrdinary_of_all (by decide)

theorem isOrdinary_of_mem_emptyReference : ∀ c ∈ emptyReference, IsOrdinary c :=
  isOrdinary_of_all (by decide)

theorem escapeFrom_of_isOrdinary {cs : List Char} (h : ∀ c ∈ cs, IsOrdinary c) (isFirst : Bool) :
    escapeFrom isFirst cs = cs := by
  induction cs generalizing isFirst with
  | nil => rfl
  | cons c rest ih =>
    obtain ⟨hc, hrest⟩ := List.forall_mem_cons.mp h
    rw [escapeFrom, hc isFirst rest, ih hrest]
    rfl

theorem joinedCells_of_isOrdinary {texts : List (List Char)}
    (h : ∀ c ∈ texts.flatten, IsOrdinary c) : joinedCells texts = texts.flatten := by
  induction texts with
  | nil => rfl
  | cons text rest ih =>
    rw [List.flatten_cons, List.forall_mem_append] at h
    rw [joinedCells, List.flatMap_cons, escapeFrom_of_isOrdinary h.1, List.flatten_cons]
    exact congrArg (text ++ ·) (ih h.2)

/-- What is written for a text starts with ordinary characters exactly if the text does. -/
theorem prefix_escapeFrom_append_iff {written behind : List Char}
    (h : ∀ start : List Char, (∀ c ∈ start, IsOrdinary c) → (start <+: written ↔ start <+: behind))
    {start : List Char} (hstart : ∀ c ∈ start, IsOrdinary c) (isFirst : Bool) (cs : List Char) :
    start <+: escapeFrom isFirst cs ++ written ↔ start <+: cs ++ behind := by
  induction cs generalizing start isFirst with
  | nil => exact h start hstart
  | cons c rest ih =>
    cases start with
    | nil => exact iff_of_true (List.nil_prefix) (List.nil_prefix)
    | cons d more =>
      obtain ⟨hd, hmore⟩ := List.forall_mem_cons.mp hstart
      by_cases heq : d = c
      · subst heq
        rw [escapeFrom, hd isFirst rest, List.append_assoc, List.singleton_append,
          List.cons_append, List.cons_prefix_cons, List.cons_prefix_cons, ih hmore]
      · refine iff_of_false (fun hprefix ↦ ?_) fun hprefix ↦
          heq (List.cons_prefix_cons.mp hprefix).1
        obtain ⟨after, hafter⟩ := hprefix
        have hne := escapeFrom_ne_nil isFirst (List.cons_ne_nil c rest)
        have hhead : (escapeFrom isFirst (c :: rest)).head? = some d := by
          rw [← List.head?_append_of_ne_nil _ hne, ← hafter]
          rfl
        obtain hbackslash | hdollar | hfirst := head?_escapeFrom hhead
        · exact hd.ne.1 hbackslash
        · exact hd.ne.2 hdollar
        · exact heq (Option.some.inj hfirst).symm

theorem prefix_joinedCells_iff {start : List Char} (hstart : ∀ c ∈ start, IsOrdinary c)
    (texts : List (List Char)) : start <+: joinedCells texts ↔ start <+: texts.flatten := by
  induction texts generalizing start with
  | nil => exact Iff.rfl
  | cons text rest ih => exact prefix_escapeFrom_append_iff (fun _ ↦ ih) hstart true text

/-! ### Reading texts that were put together -/

theorem makeSpace_cons_iff {text : List Char} {rest : List (List Char)} :
    MakeSpace (text :: rest) ↔
      (text.getLast? = some '$' ∧ spaceReference <+: rest.flatten) ∨ MakeSpace rest := by
  constructor
  · rintro ⟨before, after, htexts, hlast, hreference⟩
    cases before with
    | nil => cases hlast
    | cons first others =>
      obtain ⟨rfl, rfl⟩ := List.cons.inj htexts
      rw [List.flatten_cons] at hlast
      by_cases hempty : others.flatten = []
      · rw [hempty, List.append_nil] at hlast
        refine Or.inl ⟨hlast, ?_⟩
        change spaceReference <+: (others ++ after).flatten
        rwa [List.flatten_append, hempty]
      · rw [List.getLast?_append_of_ne_nil _ hempty] at hlast
        exact Or.inr ⟨others, after, rfl, hlast, hreference⟩
  · rintro (⟨hlast, hreference⟩ | ⟨before, after, rfl, hlast, hreference⟩)
    · exact ⟨[text], rest, rfl, by simpa using hlast, hreference⟩
    · refine ⟨text :: before, after, rfl, ?_, hreference⟩
      rw [List.flatten_cons, List.getLast?_append, hlast]
      rfl

/-- A marker at the end of a text is lost where the rest of a variable follows. -/
theorem decodeFrom_escapeFrom_marker (isFirst : Bool) (cs rest : List Char) :
    decodeFrom 0 (escapeFrom isFirst (cs ++ ['$']) ++ (spaceReference ++ rest)) =
      cs ++ ' ' :: decodeFrom 0 rest := by
  induction cs generalizing isFirst with
  | nil =>
    have hmarker : escapeFrom isFirst ['$'] = ['$'] := by cases isFirst <;> decide
    rw [List.nil_append, hmarker]
    exact decodeFrom_space rest
  | cons c more ih =>
    rw [List.cons_append, decodeFrom_escapeFrom_cons fun _ h ↦ absurd h (by simp), ih]
    rfl

theorem not_makeSpace_nil : ¬ MakeSpace [] := by
  rintro ⟨before, after, htexts, hlast, -⟩
  rw [(List.append_eq_nil_iff.mp htexts.symm).1] at hlast
  cases hlast

instance decidableMakeSpace : DecidablePred MakeSpace
  | [] => isFalse not_makeSpace_nil
  | _ :: rest =>
      have := decidableMakeSpace rest
      decidable_of_iff _ makeSpace_cons_iff.symm

/-- Joined cells are read as the texts one after the other, or there is a space in place of a
marker. -/
theorem decodeFrom_joinedCells (texts : List (List Char)) :
    (¬ MakeSpace texts ∧ decodeFrom 0 (joinedCells texts) = texts.flatten) ∨
      MakeSpace texts ∧ ∃ before after behind, texts.flatten = before ++ '$' :: after ∧
        decodeFrom 0 (joinedCells texts) = before ++ ' ' :: behind := by
  induction texts with
  | nil => exact Or.inl ⟨not_makeSpace_nil, rfl⟩
  | cons text rest ih =>
    have hcells : joinedCells (text :: rest) = escapeFrom true text ++ joinedCells rest := rfl
    rw [makeSpace_cons_iff, hcells, List.flatten_cons]
    have hstart := prefix_joinedCells_iff isOrdinary_of_mem_spaceReference rest
    by_cases hmeet : text.getLast? = some '$' ∧ spaceReference <+: rest.flatten
    · obtain ⟨front, rfl⟩ := List.getLast?_eq_some_iff.mp hmeet.1
      obtain ⟨behind, hbehind⟩ := hstart.mpr hmeet.2
      refine Or.inr ⟨Or.inl hmeet, front, rest.flatten, decodeFrom 0 behind, ?_, ?_⟩
      · rw [List.append_assoc]
        rfl
      · rw [← hbehind, decodeFrom_escapeFrom_marker]
    · have hread : decodeFrom 0 (escapeFrom true text ++ joinedCells rest) =
          text ++ decodeFrom 0 (joinedCells rest) :=
        decodeFrom_escapeFrom true text _ fun hlast hreference ↦
          hmeet ⟨hlast, hstart.mp hreference⟩
      rw [hread]
      obtain ⟨hspace, hrest⟩ | ⟨hspace, before, after, behind, htexts, hrest⟩ := ih
      · exact Or.inl ⟨not_or.mpr ⟨hmeet, hspace⟩, by rw [hrest]⟩
      · refine Or.inr ⟨Or.inr hspace, text ++ before, after, behind, ?_, ?_⟩
        · rw [htexts, List.append_assoc]
        · rw [hrest, List.append_assoc]

/-! ### Cells that are variables as a whole -/

theorem joinedCells_append (before after : List (List Char)) :
    joinedCells (before ++ after) = joinedCells before ++ joinedCells after :=
  List.flatMap_append

theorem joinedCells_of_flatten_eq_singleton {texts : List (List Char)} {c : Char}
    (h : texts.flatten = [c]) : joinedCells texts = escapeChar true c [] := by
  induction texts with
  | nil => cases h
  | cons text rest ih =>
    have hcells : joinedCells (text :: rest) = escapeFrom true text ++ joinedCells rest := rfl
    rw [List.flatten_cons, List.append_eq_singleton_iff] at h
    obtain ⟨rfl, hrest⟩ | ⟨rfl, hrest⟩ := h
    · exact ih hrest
    · rw [hcells, joinedCells_of_isOrdinary (by simp [hrest]), hrest]
      simp [escapeFrom]

/-- Texts whose cells are what follows the marker in the variable for the empty text. -/
theorem flatten_of_joinedCells_eq_emptyReference {texts : List (List Char)}
    (h : joinedCells texts = emptyReference) : texts.flatten = emptyReference := by
  have hself : decodeFrom 0 emptyReference = emptyReference := by decide
  obtain ⟨-, hread⟩ | ⟨-, before, after, behind, -, hread⟩ := decodeFrom_joinedCells texts
  · rw [← hread, h, hself]
  · have hspace : ' ' ∈ emptyReference := by
      rw [← hself, ← h, hread]
      exact List.mem_append_right _ List.mem_cons_self
    exact absurd hspace (by decide)

theorem makeEmpty_of_joinedCells {texts : List (List Char)}
    (h : joinedCells texts = emptyCell.toList) : MakeEmpty texts := by
  induction texts with
  | nil => cases h
  | cons text rest ih =>
    have hcells : joinedCells (text :: rest) = escapeFrom true text ++ joinedCells rest := rfl
    rw [hcells] at h
    cases text with
    | nil =>
      obtain ⟨before, after, rfl, hbefore, hafter⟩ := ih h
      exact ⟨[] :: before, after, rfl, hbefore, hafter⟩
    | cons c more =>
      obtain ⟨written, heq, hwritten⟩ := escapeFrom_cons true c more
      rw [heq, List.append_assoc, toList_emptyCell] at h
      cases hwritten with
      | escaped => exact absurd (List.cons.inj h).1 (by decide)
      | space =>
        have hspace : '$' :: spaceReference <+: '$' :: emptyReference := by
          rw [← h, toList_spaceCell]
          exact List.prefix_append _ _
        exact absurd hspace (by decide)
      | plain _ _ _ _ marker _ =>
        obtain ⟨rfl, hreference⟩ := List.cons.inj h
        by_cases hmore : more = []
        · subst hmore
          exact ⟨[['$']], rest, rfl, rfl, flatten_of_joinedCells_eq_emptyReference hreference⟩
        · -- the marker would have been escaped before the brace
          have hbrace : (escapeFrom false more ++ joinedCells rest).head? = some '\x7b' :=
            congrArg List.head? hreference
          exact absurd hbrace (head?_escapeFrom_append_ne hmore (marker rfl) (joinedCells rest))

theorem joinedCells_of_makeEmpty {texts : List (List Char)} (h : MakeEmpty texts) :
    joinedCells texts = emptyCell.toList := by
  obtain ⟨before, after, rfl, hbefore, hafter⟩ := h
  have hreference : joinedCells after = emptyReference := by
    rw [joinedCells_of_isOrdinary (hafter ▸ isOrdinary_of_mem_emptyReference), hafter]
  rw [joinedCells_append, joinedCells_of_flatten_eq_singleton hbefore, hreference]
  decide

instance : DecidablePred MakeEmpty := fun texts ↦
  decidable_of_iff (joinedCells texts = emptyCell.toList)
    ⟨makeEmpty_of_joinedCells, joinedCells_of_makeEmpty⟩

instance : DecidablePred Seamless := fun texts ↦
  inferInstanceAs (Decidable (¬ MakeSpace texts ∧ ¬ MakeEmpty texts))

theorem decodeCell_of_makeEmpty {texts : List (List Char)} (h : MakeEmpty texts) :
    decodeCell (joinedCell texts) = "" := by
  have hcells := joinedCells_of_makeEmpty h
  rw [joinedCell, hcells, if_neg (by decide), String.ofList_toList]
  rfl

theorem decodeCell_of_not_makeEmpty {texts : List (List Char)} (h : ¬ MakeEmpty texts) :
    decodeCell (joinedCell texts) = String.ofList (decodeFrom 0 (joinedCells texts)) := by
  rw [joinedCell]
  split
  next hnil =>
    rw [hnil]
    rfl
  next =>
    have hempty : ¬ String.ofList (joinedCells texts) = emptyCell := fun heq ↦
      h (makeEmpty_of_joinedCells (by rw [← heq, String.toList_ofList]))
    rw [decodeCell, if_neg (by simpa using hempty), String.toList_ofList]

theorem MakeEmpty.flatten_eq {texts : List (List Char)} (h : MakeEmpty texts) :
    texts.flatten = '$' :: emptyReference := by
  obtain ⟨before, after, rfl, hbefore, hafter⟩ := h
  rw [List.flatten_append, hbefore, hafter]
  rfl

/-! ### Reading the cell -/

/-- The cell for texts is read as the texts one after the other exactly if no variable arises where
they meet. -/
theorem decodeCell_joinedCell_iff (texts : List (List Char)) :
    decodeCell (joinedCell texts) = String.ofList texts.flatten ↔ Seamless texts := by
  by_cases hempty : MakeEmpty texts
  · rw [decodeCell_of_makeEmpty hempty, hempty.flatten_eq]
    exact iff_of_false (by decide) fun h ↦ h.2 hempty
  · rw [decodeCell_of_not_makeEmpty hempty, String.ofList_inj, Seamless, and_iff_left hempty]
    obtain ⟨hspace, hread⟩ | ⟨hspace, before, after, behind, htexts, hread⟩ :=
      decodeFrom_joinedCells texts
    · exact iff_of_true hread hspace
    · refine iff_of_false (fun heq ↦ ?_) fun h ↦ h hspace
      rw [hread, htexts, List.append_cancel_left_eq] at heq
      exact absurd (List.cons.inj heq).1 (by decide)

theorem seamless_singleton (text : List Char) : Seamless [text] := by
  constructor
  · rw [makeSpace_cons_iff]
    rintro (⟨-, hreference⟩ | hspace)
    · exact absurd hreference (by decide)
    · exact not_makeSpace_nil hspace
  · rintro ⟨before, after, htexts, hbefore, hafter⟩
    obtain ⟨rfl, rfl⟩ | ⟨rfl, rfl⟩ := List.append_eq_singleton_iff.mp htexts.symm
    · cases hbefore
    · cases hafter

/-- The cell of one text. -/
theorem joinedCell_singleton (text : List Char) :
    joinedCell [text] = String.ofList (escapeChars text) := by
  rw [joinedCell, joinedCells, List.flatMap_singleton, escapeChars]
  by_cases hempty : text = []
  · rw [hempty]
    rfl
  · rw [if_neg (escapeFrom_ne_nil true hempty), if_neg (by simpa using hempty)]

/-- A text that goes on with `d` is not the same text moved by characters other than `d`. -/
theorem append_ne_append_cons {d : Char} {moved : List Char} (hne : moved ≠ []) (hd : d ∉ moved)
    (text behind rest : List Char) : moved ++ (text ++ behind) ≠ text ++ d :: rest := by
  induction hlength : text.length using Nat.strongRecOn generalizing text with
  | ind n ih =>
    intro heq
    have hmoved : moved <+: text ++ d :: rest := ⟨_, heq⟩
    obtain ⟨more, hmore⟩ | ⟨more, hmore⟩ :=
      List.prefix_or_prefix_of_prefix hmoved (List.prefix_append text (d :: rest))
    · -- the text starts with what it is moved by, and the same holds of the rest of it
      subst hmore
      rw [List.append_assoc, List.append_assoc, List.append_cancel_left_eq] at heq
      have hpos := List.length_pos_iff.mpr hne
      rw [List.length_append] at hlength
      exact ih more.length (by omega) more rfl heq
    · -- the text is short, so the next character is one of those that it is moved by
      subst hmore
      rw [List.append_assoc, List.append_cancel_left_eq] at heq
      refine hd (List.mem_append.mpr ?_)
      cases more with
      | nil =>
        rw [List.append_nil] at hne
        obtain ⟨e, others, rfl⟩ := List.exists_cons_of_ne_nil hne
        exact Or.inl ((List.cons.inj heq).1 ▸ List.mem_cons_self)
      | cons e others => exact Or.inr ((List.cons.inj heq).1 ▸ List.mem_cons_self)

/-- Behind a number other than the digits that the texts start with, the cell has another value. -/
theorem decodeCell_joinedCell_ne {texts : List (List Char)} {front sum rest : List Char}
    (hfront : '$' ∉ front) (hsum : ¬ front <+: sum) (htexts : texts.flatten = front ++ rest) :
    decodeCell (joinedCell texts) ≠ String.ofList (sum ++ rest) := by
  have hempty : ¬ MakeEmpty texts := by
    intro hempty
    rw [hempty.flatten_eq] at htexts
    cases front with
    | nil => exact hsum List.nil_prefix
    | cons c more => exact hfront ((List.cons.inj htexts).1 ▸ List.mem_cons_self)
  rw [decodeCell_of_not_makeEmpty hempty, Ne, String.ofList_inj]
  intro heq
  obtain ⟨-, hread⟩ | ⟨-, before, after, behind, hmarker, hread⟩ := decodeFrom_joinedCells texts
  · rw [hread, htexts, List.append_cancel_right_eq] at heq
    exact hsum (heq ▸ List.prefix_rfl)
  · rw [hread] at heq
    -- the marker stands behind the digits, and so the texts agree only if they are moved by some
    obtain ⟨text, rfl⟩ : front <+: before :=
      Chars.prefix_of_prefix_append_cons hfront ⟨rest, by rw [← htexts, hmarker]⟩
    obtain rfl : rest = text ++ '$' :: after := by
      rw [htexts, List.append_assoc, List.append_cancel_left_eq] at hmarker
      exact hmarker
    rw [List.append_assoc] at heq
    obtain hprefix | ⟨moved, rfl⟩ := List.prefix_or_prefix_of_prefix
      ⟨_, heq⟩ (List.prefix_append sum (text ++ '$' :: after))
    · exact hsum hprefix
    · rw [List.append_assoc, List.append_cancel_left_eq] at heq
      refine append_ne_append_cons (fun hnil ↦ hsum ?_)
        (fun h ↦ hfront (List.mem_append_right _ h)) _ _ _ heq
      simp [hnil]

end SuiteMigration.Robot
