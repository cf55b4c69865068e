import SuiteMigration.Proofs.Java.InPlace.Header
import SuiteMigration.Proofs.Java.MethodNames

/-!
Outlines in place. A source is cut at the positions of code bytes, and its parts are read one after
the other until the source ends. The reading breaks off only where a method name directly follows a
symbol outside ASCII; in a source whose symbols are all in ASCII it never does.
-/

set_option autoImplicit false
set_option relaxedAutoImplicit false

namespace SuiteMigration.Java.InPlace

open SuiteMigration.Chars (byteSize)
open SuiteMigration.Text (isAlphanumeric isAscii isBlank startsWith)

/-- A reading that ends in a result or a failure of the outline, unless it breaks off. -/
abbrev Attempt := ExceptT OutlineError Option

/-- The reading that breaks off where a name cannot be read, and ends as told elsewhere. -/
def attempt {α : Type} : Except OutlineError α → Attempt α
  | .ok a => pure a
  | .error e => if e.isUnreadableName then ExceptT.mk none else throw e

@[simp] theorem lift_some_bind {α β : Type} (a : α) (f : α → Attempt β) :
    (liftM (some a) : Attempt α) >>= f = f a := rfl

section Attempt

variable {α β : Type}

@[simp] theorem attempt_pure (a : α) : attempt (pure a) = pure a := rfl

theorem attempt_error_bind (e : OutlineError) (f : α → Attempt β) :
    attempt (.error e) >>= f = attempt (.error e) := by
  change (if e.isUnreadableName then _ else _) >>= f = if e.isUnreadableName then _ else _
  cases e.isUnreadableName <;> rfl

theorem attempt_bind (result : Except OutlineError α) (f : α → Except OutlineError β) :
    attempt (result >>= f) = attempt result >>= fun a ↦ attempt (f a) := by
  cases result with
  | ok a => rfl
  | error e =>
    change (if e.isUnreadableName then _ else _) = (if e.isUnreadableName then _ else _) >>= _
    cases e.isUnreadableName <;> rfl

theorem attempt_map (result : Except OutlineError α) (f : α → β) :
    attempt (result.map f) = f <$> attempt result := by
  cases result with
  | ok a => rfl
  | error e =>
    change (if e.isUnreadableName then _ else _) = f <$> (if e.isUnreadableName then _ else _)
    cases e.isUnreadableName <;> rfl

/-- A result that is not the failure at a name that cannot be read. -/
def Readable (result : Except OutlineError α) : Prop :=
  ∀ e, result = .error e → e.isUnreadableName = false

theorem readable_ok (a : α) : Readable (.ok a) := nofun

theorem Readable.bind {result : Except OutlineError α} {f : α → Except OutlineError β}
    (h : Readable result) (hf : ∀ a, result = .ok a → Readable (f a)) :
    Readable (result >>= f) := by
  cases result with
  | ok a => exact hf a rfl
  | error e => exact fun e' he ↦ h e' (by cases he; rfl)

theorem Readable.map {result : Except OutlineError α} (h : Readable result) (f : α → β) :
    Readable (result.map f) := by
  cases result with
  | ok a => nofun
  | error e => exact fun e' he ↦ h e' (by cases he; rfl)

/-- A readable result is what the reading ends with. -/
theorem attempt_eq_mk {result : Except OutlineError α} (h : Readable result) :
    attempt result = ExceptT.mk (some result) := by
  cases result with
  | ok a => rfl
  | error e => exact if_neg (Bool.eq_false_iff.mp (h e rfl))

end Attempt

/-! ### Members -/

/-- A header on one line, cut at sixty characters. -/
def shortHeader (header : String) : Option String := do
  let line := (Text.collapse header).toList
  if 60 < line.length then
    return String.ofList (← slice? line 0 (byteSize (line.take 60))) ++ "..."
  else return String.ofList line

/-- Reads the member between two positions, and the block behind it if it has one. -/
def readMember (className : Option String) (cs : List Char) (start stop : Nat) :
    Attempt (List Member × Nat) := do
  let header := String.ofList (Chars.trim (← stripCommentChars (← slice? cs start stop)))
  let closer ← ((bytes cs)[stop]? : Option Char)
  if closer == ';' then
    if header.isEmpty then return ([], stop + 1)
    let ⟨annotations, rest⟩ ← ExceptT.mk (splitAnnotations header)
    if startsWith rest "import " || startsWith rest "package " then return ([], stop + 1)
    return ([.field ⟨annotations, rest⟩], stop + 1)
  else
    match ← scanDelimited '\x7b' '\x7d' cs stop with
    | none => throw (.unclosedBlock (← shortHeader header))
    | some (block, close) =>
        let ⟨annotations, rest⟩ ← ExceptT.mk (splitAnnotations header)
        let method ← methodOf rest (String.ofList block) annotations className
        return (method.toList.map .method, close + 1)

/-- The members of a class body from a position on, until its end. -/
def membersFrom (className : Option String) (cs : List Char) : Nat → Nat → Attempt (List Member)
  | 0, _ => ExceptT.mk none
  | fuel + 1, position =>
      match findCode? isMemberEnd cs position with
      | none => return []
      | some stop => do
          let (members, next) ← readMember className cs position stop
          return members ++ (← membersFrom className cs fuel next)

def members (className : Option String) (body : List Char) : Attempt (List Member) :=
  membersFrom className body (body.length + 1) 0

/-- The outline of the first type of a source. -/
def outline (source : String) : Attempt Outline :=
  let cs := source.toList
  let declared := do
    let (name, after) ← findType? none cs
    let opening ← findCode? (· == '\x7b') cs (startOf cs after)
    return (String.ofList name, opening)
  match declared with
  | some (name, opening) => do
      match ← scanDelimited '\x7b' '\x7d' cs opening with
      | none => throw (.unclosedBlock s!"class {name}")
      | some (body, _) => return ⟨some name, ← members (some name) body⟩
  | none => do return ⟨none, ← members none cs⟩

theorem shortHeader_eq (header : String) : shortHeader header = some (Java.shortHeader header) := by
  have hlength : (Text.collapse header).toList.length = (Text.collapse header).length :=
    String.length_toList
  have hslice := slice?_from_start ((Text.collapse header).toList.take 60)
    ((Text.collapse header).toList.drop 60)
  rw [List.take_append_drop] at hslice
  unfold shortHeader Java.shortHeader
  simp only [hslice, hlength, Option.bind_eq_bind, Option.bind_some]
  split
  · rfl
  · rw [String.ofList_toList]
    rfl

theorem readable_readAnnotationUse (cs : List Char) : Readable (Java.readAnnotationUse cs) := by
  unfold Java.readAnnotationUse
  dsimp only
  split
  · split
    · exact readable_ok _
    · rintro e ⟨⟩
      rfl
  · exact readable_ok _

theorem readable_annotationsFrom (fuel : Nat) (found : List AnnotationUse) (kept cs : List Char) :
    Readable (Java.annotationsFrom fuel found kept cs) := by
  fun_induction Java.annotationsFrom fuel found kept cs with
  | case1 => exact readable_ok _
  | case2 => exact readable_ok _
  | case3 fuel found kept c cs hquote cut ih => exact ih
  | case4 fuel found kept c cs hquote hsign ih =>
    exact (readable_readAnnotationUse cs).bind fun read _ ↦ ih read.1 read.2
  | case5 fuel found kept c cs hquote hsign ih => exact ih

theorem readable_splitAnnotations (header : String) : Readable (Java.splitAnnotations header) :=
  (readable_annotationsFrom _ _ _ _).bind fun _ _ ↦ readable_ok _

theorem attempt_splitAnnotations (header : String) :
    ExceptT.mk (splitAnnotations header) = attempt (Java.splitAnnotations header) := by
  rw [splitAnnotations_eq, attempt_eq_mk (readable_splitAnnotations header)]

theorem attempt_methodOf? (header body : String) (annotations : List AnnotationUse)
    (className : Option String) :
    (liftM (methodOf header body annotations className) : Attempt (Option Method)) =
      attempt (methodOf? header body annotations className) := by
  rw [methodOf_eq]
  cases hmethod : methodOf? header body annotations className with
  | ok method => rfl
  | error e => exact (if_pos (methodOf?_failure hmethod)).symm

theorem isAscii_of_isMemberEnd {c : Char} (h : isMemberEnd c = true) : isAscii c = true := by
  rw [isMemberEnd, Bool.or_eq_true, beq_iff_eq, beq_iff_eq] at h
  rcases h with rfl | rfl <;> decide

theorem readMember_append (className : Option String) (front before after : List Char)
    {closer : Char} (hcloser : isMemberEnd closer = true) :
    readMember className (front ++ (before ++ closer :: after)) (byteSize front)
        (byteSize front + byteSize before) =
      attempt ((Java.readMember className before closer after).map fun found ↦
        (found.1, startOf (front ++ (before ++ closer :: after)) found.2)) := by
  have hascii := isAscii_of_isMemberEnd hcloser
  have hbyte : (bytes (front ++ (before ++ closer :: after)))[byteSize front + byteSize before]? =
      some closer := by
    rw [← byteSize_append, ← List.append_assoc, getElem?_bytes, bytes_cons_of_isAscii hascii,
      List.head?_cons]
  have hend : startOf (front ++ (before ++ closer :: after)) after =
      byteSize front + byteSize before + 1 := by
    have h := startOf_append (front ++ (before ++ [closer])) after
    rw [List.append_assoc, List.append_assoc, List.singleton_append] at h
    rw [h, byteSize_append, byteSize_append, byteSize, utf8Size_of_isAscii hascii, Nat.add_assoc]
    rfl
  unfold readMember Java.readMember
  simp only [slice?_append, stripCommentChars_eq, hbyte, lift_some_bind, attempt_splitAnnotations,
    attempt_methodOf?]
  generalize String.ofList (Chars.trim (Java.stripCommentChars before)) = header
  split
  · split
    · rw [← hend]
      rfl
    · rw [attempt_map, attempt_bind, map_bind]
      refine bind_congr fun parts ↦ ?_
      split <;> simp [hend]
  · have hscan := scanDelimited_append '\x7b' '\x7d' (by decide)
      (by decide) (by decide) (front ++ before) (closer :: after)
    rw [List.append_assoc, byteSize_append] at hscan
    rw [hscan]
    cases hblock : enclosed? '\x7b' '\x7d' (closer :: after) with
    | none =>
      simp only [Option.map_none, lift_some_bind, shortHeader_eq]
      rfl
    | some block =>
      have hclose := startOf_enclosed (by decide) (by decide) (front ++ before) hblock
      rw [List.append_assoc, byteSize_append] at hclose
      simp only [Option.map_some, lift_some_bind, attempt_map, attempt_bind, map_bind]
      refine bind_congr fun parts ↦ bind_congr fun method ↦ ?_
      rw [attempt_pure, map_pure, hclose]

/-- What is left after a member stands behind it. -/
theorem readMember_suffix {className : Option String} {before after rest : List Char}
    {closer : Char} {found : List Member}
    (h : Java.readMember className before closer after = .ok (found, rest)) : rest <:+ after := by
  unfold Java.readMember at h
  dsimp only at h
  split at h
  · split at h
    · cases h
      exact List.suffix_rfl
    · obtain ⟨parts, -, h⟩ := exists_of_bind_eq_ok h
      split at h <;> · cases h; exact List.suffix_rfl
  · split at h
    · cases h
    next block hblock =>
      obtain ⟨parts, -, h⟩ := exists_of_bind_eq_ok h
      obtain ⟨method, -, h⟩ := exists_of_bind_eq_ok h
      cases h
      have htext := (List.cons.inj (eq_append_of_enclosed? hblock)).2
      exact ⟨block.before ++ ['\x7d'], by rw [htext, List.append_assoc, List.singleton_append]⟩

/-- A class body is read in place as it is in the text, and to its end. -/
theorem membersFrom_append (className : Option String) {fuel : Nat} (front : List Char)
    {rest : List Char} (h : rest.length < fuel) :
    membersFrom className (front ++ rest) fuel (byteSize front) =
      attempt (Java.membersFrom className fuel rest) := by
  induction fuel generalizing front rest with
  | zero => exact absurd h (Nat.not_lt_zero _)
  | succ fuel ih =>
    have hfind : findCode? isMemberEnd (front ++ rest) (byteSize front) =
        (breakCode? (fun c ↦ c == ';' || c == '\x7b') rest).map fun cut ↦
          byteSize front + byteSize cut.1 :=
      findCode?_append (fun _ ↦ isAscii_of_isMemberEnd) front rest
    rw [membersFrom, hfind, Java.membersFrom]
    cases hbreak : breakCode? (fun c ↦ c == ';' || c == '\x7b') rest with
    | none => rfl
    | some cut =>
      obtain ⟨before, closer, after⟩ := cut
      obtain ⟨rfl, hcloser⟩ := eq_append_of_breakCode? hbreak
      simp only [Option.map_some, readMember_append className front before after hcloser,
        attempt_map, attempt_bind]
      cases hread : Java.readMember className before closer after with
      | error e => rw [bind_map_left, attempt_error_bind, attempt_error_bind]
      | ok read =>
        obtain ⟨found, next⟩ := read
        obtain ⟨middle, rfl⟩ := readMember_suffix hread
        have hlength : (before ++ closer :: (middle ++ next)).length =
            (before ++ closer :: middle).length + next.length := by
          simp only [List.length_append, List.length_cons]
          omega
        have hpos : 0 < (before ++ closer :: middle).length := by simp
        have hstart := startOf_append (front ++ (before ++ closer :: middle)) next
        have hnext : next.length < fuel := by omega
        have hrest := ih (front ++ (before ++ closer :: middle)) hnext
        rw [List.append_assoc, List.append_assoc, List.cons_append] at hstart hrest
        rw [← hstart] at hrest
        exact congrArg (· >>= fun others ↦ pure (found ++ others)) hrest

theorem members_eq (className : Option String) (body : List Char) :
    members className body = attempt (Java.members className body) :=
  membersFrom_append className [] (Nat.lt_succ_self body.length)

/-- A type name stands in the source, with what follows it. -/
theorem findType?_suffix {cs name after : List Char} (h : findType? none cs = some (name, after)) :
    after <:+ cs := by
  rw [← textOf_marks cs] at h
  obtain ⟨front, mark, back, hmarks, hhere⟩ := exists_of_findType? h
  obtain ⟨declaration, -, htext, -⟩ := exists_isDeclaration hhere
  rw [← textOf_marks cs, hmarks, textOf_append, htext]
  exact (List.suffix_append _ _).trans (List.suffix_append _ _)

/-- The outline of a source is read in place as it is in the text. -/
theorem outline_eq (source : String) : outline source = attempt (Java.outline source) := by
  have hmembers (className : Option String) (body : List Char) :
      (do return ⟨className, ← members className body⟩ : Attempt Outline) =
        attempt (do return ⟨className, ← Java.members className body⟩) := by
    rw [members_eq, attempt_bind]
    rfl
  unfold outline Java.outline outlineChars
  dsimp only
  cases hfind : findType? none source.toList with
  | none => exact hmembers none source.toList
  | some found =>
    obtain ⟨name, after⟩ := found
    obtain ⟨front, htext⟩ := findType?_suffix hfind
    have hopening := findCode?_append (p := (· == '\x7b')) (by simp; decide) front after
    have hstart := startOf_append front after
    rw [htext] at hopening hstart
    simp only [Option.bind_eq_bind, Option.bind_some, hstart, hopening]
    cases hbreak : breakCode? (· == '\x7b') after with
    | none => exact hmembers none source.toList
    | some cut =>
      obtain ⟨before, c, inside⟩ := cut
      obtain ⟨rfl, hc⟩ := eq_append_of_breakCode? hbreak
      obtain rfl := beq_iff_eq.mp hc
      have hscan := scanDelimited_append '\x7b' '\x7d' (by decide)
        (by decide) (by decide) (front ++ before) ('\x7b' :: inside)
      rw [List.append_assoc, htext, byteSize_append] at hscan
      simp only [Option.map_some, Option.bind_some, Option.pure_def, hscan, lift_some_bind]
      cases enclosed? '\x7b' '\x7d' ('\x7b' :: inside) with
      | none => rfl
      | some block => exact hmembers (some (String.ofList name)) block.before

-- a name directly behind an arrow starts inside a character
example : (outline "void a\u2192b() \x7b\x7d").run.isNone = true := by decide +kernel

/-! ### Symbols in ASCII -/

/-- A character that is alphanumeric, white space, or an ASCII symbol. -/
def IsOrdinary (c : Char) : Prop :=
  isAlphanumeric c = true ∨ isBlank c = true ∨ isAscii c = true

instance (c : Char) : Decidable (IsOrdinary c) :=
  inferInstanceAs (Decidable (_ ∨ _))

/-- A text whose symbols are all in ASCII. -/
def HasAsciiSymbols (cs : List Char) : Prop :=
  ∀ c ∈ cs, IsOrdinary c

instance (cs : List Char) : Decidable (HasAsciiSymbols cs) :=
  List.decidableBAll IsOrdinary cs

theorem HasAsciiSymbols.mono {cs ds : List Char} (h : HasAsciiSymbols cs) (hsub : ds ⊆ cs) :
    HasAsciiSymbols ds :=
  fun c hc ↦ h c (hsub hc)

theorem trim_subset (cs : List Char) : Chars.trim cs ⊆ cs := fun c hc ↦ by
  obtain ⟨blanks, -, htrim⟩ := Chars.exists_eq_trimEnd_append (Chars.trimStart cs)
  refine (List.dropWhile_suffix isBlank).subset (?_ : c ∈ Chars.trimStart cs)
  rw [htrim]
  exact List.mem_append_left _ hc

theorem HasAsciiSymbols.stripCommentChars {cs : List Char} (h : HasAsciiSymbols cs) :
    HasAsciiSymbols (Java.stripCommentChars cs) := by
  intro c hc
  obtain ⟨mark, hmark, hmem⟩ := List.mem_flatMap.mp hc
  have hchar : mark.char ∈ cs := by
    rw [← textOf_marks cs]
    exact List.mem_map_of_mem hmark
  unfold Mark.withoutComment at hmem
  split at hmem
  · rw [List.mem_singleton.mp hmem]
    exact h _ hchar
  · rw [List.mem_singleton.mp hmem]
    exact h _ hchar
  · cases hmem
  · rw [List.mem_singleton.mp hmem]
    exact Or.inr (Or.inr (by decide))
  · rw [List.mem_singleton.mp hmem]
    exact Or.inr (Or.inr (by decide))

/-- What is kept of a header comes from it. -/
theorem subset_of_annotationsFrom {fuel : Nat} {found annotations : List AnnotationUse}
    {kept cs rest : List Char}
    (h : Java.annotationsFrom fuel found kept cs = .ok (annotations, rest)) :
    rest ⊆ kept ++ cs := by
  fun_induction Java.annotationsFrom fuel found kept cs with
  | case1 =>
    cases h
    exact fun c hc ↦ List.mem_append_left _ (List.mem_reverse.mp hc)
  | case2 =>
    cases h
    exact fun c hc ↦ List.mem_append_left _ (List.mem_reverse.mp hc)
  | case3 fuel found kept c cs hquote cut ih =>
    refine List.Subset.trans (ih h) fun d hd ↦ ?_
    have htext : cut.before ++ cut.after = cs := before_append_after_literalCut cs
    rw [← htext]
    simp only [List.mem_append, List.mem_reverse, List.mem_cons] at hd ⊢
    tauto
  | case4 fuel found kept c cs hquote hsign ih =>
    obtain ⟨⟨item, after⟩, hitem, h⟩ := exists_of_bind_eq_ok h
    refine List.Subset.trans (ih item after h) fun d hd ↦ ?_
    rw [List.mem_append] at hd ⊢
    exact hd.imp_right fun hd ↦
      List.mem_cons_of_mem _ ((readAnnotationUse_suffix hitem).subset hd)
  | case5 fuel found kept c cs hquote hsign ih =>
    refine List.Subset.trans (ih h) fun d hd ↦ ?_
    simp only [List.mem_append, List.mem_cons] at hd ⊢
    tauto

/-- A header is put together with spaces, so its white space is in ASCII too. -/
theorem isAscii_of_splitAnnotations {header : String} {parts : Header}
    (h : Java.splitAnnotations header = .ok parts) (hheader : HasAsciiSymbols header.toList) :
    ∀ c ∈ parts.rest.toList, isAlphanumeric c = true ∨ isAscii c = true := by
  obtain ⟨⟨annotations, rest⟩, hread, h⟩ := exists_of_bind_eq_ok h
  cases h
  intro c hc
  rw [String.toList_ofList] at hc
  rcases Chars.mem_join hc with hspace | ⟨word, hword, hc⟩
  · rw [List.mem_singleton.mp hspace]
    exact Or.inr (by decide)
  · obtain ⟨hrest, hblank⟩ := Chars.mem_of_mem_words hword hc
    rcases hheader c (subset_of_annotationsFrom hread hrest) with hc | hc | hc
    · exact Or.inl hc
    · rw [hblank] at hc
      cases hc
    · exact Or.inr hc

theorem readable_methodOf? {header : String}
    (hheader : ∀ c ∈ header.toList, isAlphanumeric c = true ∨ isAscii c = true) (body : String)
    (annotations : List AnnotationUse) (className : Option String) :
    Readable (methodOf? header body annotations className) := by
  unfold methodOf?
  split
  · exact readable_ok _
  split
  · exact readable_ok _
  next before c after hbreak =>
  split
  · exact readable_ok _
  dsimp only
  split
  next symbol hsymbol =>
    -- the symbol stands in the header and belongs to no name
    exfalso
    rw [Option.filter_eq_some_iff, Bool.not_eq_true'] at hsymbol
    have hname : isNameChar symbol = false := by
      have hhead := List.head?_dropWhile_not isNameChar (Chars.trimEnd before).reverse
      rwa [hsymbol.1] at hhead
    have hmem : symbol ∈ header.toList := by
      rw [(eq_append_of_breakCode? hbreak).1]
      have hbefore := (List.dropWhile_suffix _).subset (List.mem_of_head? hsymbol.1)
      rw [List.mem_reverse] at hbefore
      refine List.mem_append_left _ ?_
      obtain ⟨blanks, -, htrim⟩ := Chars.exists_eq_trimEnd_append before
      rw [htrim]
      exact List.mem_append_left _ hbefore
    rcases hheader symbol hmem with hc | hc
    · rw [isNameChar, hc] at hname
      cases hname
    · rw [hsymbol.2] at hc
      cases hc
  next => split <;> exact readable_ok _

theorem readable_readMember {before : List Char} (hbefore : HasAsciiSymbols before)
    (className : Option String) (closer : Char) (after : List Char) :
    Readable (Java.readMember className before closer after) := by
  have hheader : HasAsciiSymbols
      (String.ofList (Chars.trim (Java.stripCommentChars before))).toList := by
    rw [String.toList_ofList]
    exact hbefore.stripCommentChars.mono (trim_subset _)
  unfold Java.readMember
  generalize String.ofList (Chars.trim (Java.stripCommentChars before)) = header at hheader
  dsimp only
  split
  · split
    · exact readable_ok _
    · refine (readable_splitAnnotations header).bind fun parts _ ↦ ?_
      split <;> exact readable_ok _
  · split
    · rintro e ⟨⟩
      rfl
    · refine (readable_splitAnnotations header).bind fun parts hparts ↦ ?_
      have hrest := isAscii_of_splitAnnotations hparts hheader
      exact (readable_methodOf? hrest _ _ _).bind fun _ _ ↦ readable_ok _

theorem readable_membersFrom {cs : List Char} (h : HasAsciiSymbols cs) (className : Option String)
    (fuel : Nat) : Readable (Java.membersFrom className fuel cs) := by
  induction fuel generalizing cs with
  | zero => exact readable_ok _
  | succ fuel ih =>
    rw [Java.membersFrom]
    split
    · exact readable_ok _
    next before closer after hbreak =>
      obtain ⟨rfl, -⟩ := eq_append_of_breakCode? hbreak
      have hbefore := h.mono (List.subset_append_left before _)
      refine (readable_readMember hbefore className closer after).bind fun read hread ↦ ?_
      have hrest : read.2 ⊆ before ++ closer :: after := fun c hc ↦
        List.mem_append_right _ (List.mem_cons_of_mem _ ((readMember_suffix hread).subset hc))
      exact (ih (h.mono hrest)).bind fun _ _ ↦ readable_ok _

/-- No name follows a symbol outside ASCII if there is none in the source. -/
theorem readable_outline {source : String} (h : HasAsciiSymbols source.toList) :
    Readable (Java.outline source) := by
  have hmembers (className : Option String) {cs : List Char} (hcs : HasAsciiSymbols cs) :
      Readable (do return ⟨className, ← Java.members className cs⟩ : Except _ Outline) :=
    (readable_membersFrom hcs className _).bind fun _ _ ↦ readable_ok _
  unfold Java.outline outlineChars
  dsimp only
  split
  next hdeclared =>
    split
    · rintro e ⟨⟩
      rfl
    next block hblock =>
      obtain ⟨⟨word, after⟩, hfind, hopened⟩ := Option.bind_eq_some_iff.mp hdeclared
      obtain ⟨⟨before, brace, behind⟩, hbreak, heq⟩ := Option.bind_eq_some_iff.mp hopened
      obtain ⟨rfl, -⟩ := eq_append_of_breakCode? hbreak
      cases heq
      refine hmembers (some _) (h.mono fun c hc ↦ ?_)
      have hinside : behind = block.before ++ '\x7d' :: block.after :=
        (List.cons.inj (eq_append_of_enclosed? hblock)).2
      refine (findType?_suffix hfind).subset (?_ : c ∈ before ++ brace :: behind)
      simp [hinside, hc]
  · exact hmembers none h

end SuiteMigration.Java.InPlace
