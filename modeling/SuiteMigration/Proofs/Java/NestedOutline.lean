import SuiteMigration.Proofs.Java.Members
import SuiteMigration.Proofs.Java.Nesting
import SuiteMigration.Proofs.Java.TypeSearch

/-!
The outline of a source with nested brackets. Every block that the reader opens is closed, so the
outline can fail only where annotations are read. A class body is cut into headers at semicolons and
braces whether or not a parenthesis is open, so the arguments of an annotation may be cut; and the
reader of annotations does not know character literals and text blocks, so it may take a part of a
literal for an annotation. These are the only ways to fail, apart from a type that is declared
outside the code and from a name that cannot be read.
-/

set_option autoImplicit false
set_option relaxedAutoImplicit false

namespace SuiteMigration.Java

open SuiteMigration.Text

/-! ### Annotations that are not closed -/

/-- The reader of annotations comes from one place of a header to another. -/
inductive Reads : List Char → List Char → Prop
  | here (cs : List Char) : Reads cs cs
  | literal {rest target : List Char} (h : Reads (literalCut rest).after target) :
      Reads ('"' :: rest) target
  | use {rest after target : List Char} {item : AnnotationUse}
      (hitem : readAnnotationUse rest = .ok (item, after)) (h : Reads after target) :
      Reads ('@' :: rest) target
  | other {c : Char} {rest target : List Char} (hquote : c ≠ '"') (hsign : c ≠ '@')
      (h : Reads rest target) : Reads (c :: rest) target

def isAnnotationChar (c : Char) : Bool :=
  isNameChar c || c == '.'

/-- The arguments that follow the name of an annotation are not closed. -/
def OpenArguments (cs : List Char) : Prop :=
  ∃ tail, Chars.trimStart (cs.dropWhile isAnnotationChar) = '(' :: tail ∧
    enclosed? '(' ')' ('(' :: tail) = none

/-- The reader of annotations comes to an annotation whose arguments are not closed. -/
def HasOpenArguments (header : String) : Prop :=
  ∃ rest, Reads header.toList ('@' :: rest) ∧ OpenArguments rest

theorem readAnnotationUse_error_iff {cs : List Char} :
    (∃ e, readAnnotationUse cs = .error e) ↔ OpenArguments cs := by
  unfold readAnnotationUse OpenArguments
  dsimp only
  split
  next inside htrim =>
    cases henclosed : enclosed? '(' ')' ('(' :: inside) with
    | none => exact ⟨fun _ ↦ ⟨inside, htrim, henclosed⟩, fun _ ↦ ⟨_, rfl⟩⟩
    | some cut =>
      constructor
      · rintro ⟨e, he⟩
        cases he
      · rintro ⟨tail, htail, hnone⟩
        cases htrim.symm.trans htail
        cases henclosed.symm.trans hnone
  next hother =>
    constructor
    · rintro ⟨e, he⟩
      cases he
    · rintro ⟨tail, htail, _⟩
      exact absurd htail (hother tail)

theorem exists_reads_of_error {fuel : Nat} {found : List AnnotationUse} {rest cs : List Char}
    {e : OutlineError} (h : annotationsFrom fuel found rest cs = .error e) :
    ∃ more, Reads cs ('@' :: more) ∧ OpenArguments more := by
  fun_induction annotationsFrom fuel found rest cs with
  | case1 => cases h
  | case2 => cases h
  | case3 fuel found rest c cs hquote cut ih =>
    obtain rfl : c = '"' := beq_iff_eq.mp hquote
    obtain ⟨more, hreads, hopen⟩ := ih h
    exact ⟨more, .literal hreads, hopen⟩
  | case4 fuel found rest c cs hquote hsign ih =>
    obtain rfl : c = '@' := beq_iff_eq.mp hsign
    cases hitem : readAnnotationUse cs with
    | error e => exact ⟨cs, .here _, readAnnotationUse_error_iff.mp ⟨e, hitem⟩⟩
    | ok read =>
      obtain ⟨item, after⟩ := read
      rw [hitem] at h
      obtain ⟨more, hreads, hopen⟩ := ih item after h
      exact ⟨more, .use hitem hreads, hopen⟩
  | case5 fuel found rest c cs hquote hsign ih =>
    obtain ⟨more, hreads, hopen⟩ := ih h
    exact ⟨more, .other (by simpa using hquote) (by simpa using hsign) hreads, hopen⟩

theorem literalCut_suffix (cs : List Char) : (literalCut cs).after <:+ cs := by
  fun_induction literalCut cs with
  | case1 => exact List.suffix_refl []
  | case2 rest => exact List.suffix_cons _ _
  | case3 c rest ih => exact ih.trans (List.suffix_append ['\\', c] rest)
  | case4 c rest _ _ ih => exact ih.trans (List.suffix_cons _ _)

theorem readAnnotationUse_suffix {cs after : List Char} {item : AnnotationUse}
    (h : readAnnotationUse cs = .ok (item, after)) : after <:+ cs := by
  simp only [readAnnotationUse] at h
  split at h
  next inside htrim =>
    have hinside : inside <:+ cs := by
      refine (List.suffix_cons '(' inside).trans ?_
      rw [← htrim]
      exact (List.dropWhile_suffix _).trans (List.dropWhile_suffix _)
    rw [enclosed?_cons (by decide)] at h
    cases hclose : closeMarks? '(' ')' 0 (marks inside) with
    | none => simp [hclose] at h
    | some found =>
      have hmarks := congrArg textOf (closeMarks?_eq_some hclose)
      rw [textOf_marks, textOf_append, textOf_cons] at hmarks
      simp only [hclose, Option.map_some, Except.ok.injEq, Prod.mk.injEq] at h
      rw [← h.2]
      refine List.IsSuffix.trans ?_ hinside
      exact ⟨textOf found.1 ++ [')'], by rw [hmarks, List.append_assoc]; rfl⟩
  next =>
    cases h
    exact List.dropWhile_suffix _

theorem Reads.suffix {cs target : List Char} (h : Reads cs target) : target <:+ cs := by
  induction h with
  | here cs => exact List.suffix_refl cs
  | literal _ ih => exact (ih.trans (literalCut_suffix _)).trans (List.suffix_cons _ _)
  | use hitem _ ih =>
    exact (ih.trans (readAnnotationUse_suffix hitem)).trans (List.suffix_cons _ _)
  | other _ _ _ ih => exact ih.trans (List.suffix_cons _ _)

theorem exists_error_of_reads {cs more : List Char} (h : Reads cs ('@' :: more))
    (hopen : OpenArguments more) {fuel : Nat} (hfuel : cs.length < fuel)
    (found : List AnnotationUse) (rest : List Char) :
    ∃ e, annotationsFrom fuel found rest cs = .error e := by
  generalize htarget : '@' :: more = target at h
  induction h generalizing fuel found rest with
  | here cs =>
    subst htarget
    obtain ⟨fuel, rfl⟩ := Nat.exists_eq_succ_of_ne_zero (Nat.ne_zero_of_lt hfuel)
    obtain ⟨e, he⟩ := readAnnotationUse_error_iff.mpr hopen
    refine ⟨e, ?_⟩
    rw [annotationsFrom, if_neg (by decide), if_pos (by decide), he]
    rfl
  | @literal cs target _ ih =>
    obtain ⟨fuel, rfl⟩ := Nat.exists_eq_succ_of_ne_zero (Nat.ne_zero_of_lt hfuel)
    have hlength := (literalCut_suffix cs).length_le
    rw [List.length_cons] at hfuel
    rw [annotationsFrom, if_pos (by decide)]
    exact ih (by omega) _ _ htarget
  | @use cs after target item hitem _ ih =>
    obtain ⟨fuel, rfl⟩ := Nat.exists_eq_succ_of_ne_zero (Nat.ne_zero_of_lt hfuel)
    have hlength := (readAnnotationUse_suffix hitem).length_le
    rw [List.length_cons] at hfuel
    rw [annotationsFrom, if_neg (by decide), if_pos (by decide), hitem]
    exact ih (by omega) _ _ htarget
  | @other c cs target hquote hsign _ ih =>
    obtain ⟨fuel, rfl⟩ := Nat.exists_eq_succ_of_ne_zero (Nat.ne_zero_of_lt hfuel)
    rw [List.length_cons] at hfuel
    rw [annotationsFrom, if_neg (by simpa using hquote), if_neg (by simpa using hsign)]
    exact ih (by omega) _ _ htarget

/-- Annotations are read unless the arguments of one are not closed. -/
theorem splitAnnotations_error_iff {header : String} :
    (∃ e, splitAnnotations header = .error e) ↔ HasOpenArguments header := by
  have hsplit : splitAnnotations header = (annotationsFrom (header.toList.length + 1) [] []
      header.toList).map fun read ↦ ⟨read.1, String.ofList (Chars.collapse read.2)⟩ := by
    rw [splitAnnotations]
    cases annotationsFrom (header.toList.length + 1) [] [] header.toList <;> rfl
  rw [hsplit]
  constructor
  · rintro ⟨e, he⟩
    cases hread : annotationsFrom (header.toList.length + 1) [] [] header.toList with
    | error e => exact exists_reads_of_error hread
    | ok read => rw [hread] at he; cases he
  · rintro ⟨more, hreads, hopen⟩
    obtain ⟨e, he⟩ := exists_error_of_reads hreads hopen (Nat.lt_succ_self _) [] []
    exact ⟨e, by rw [he]; rfl⟩

/-- What stands before the arguments of an annotation is plain code. -/
theorem OpenArguments.exists_plain {cs : List Char} (h : OpenArguments cs) :
    ∃ name tail, cs = name ++ '(' :: tail ∧ (name ++ ['(']).all isPlain = true ∧
      closeMarks? '(' ')' 0 (marks tail) = none := by
  obtain ⟨tail, htail, hnone⟩ := h
  have hrest : cs.dropWhile isAnnotationChar =
      (cs.dropWhile isAnnotationChar).takeWhile isBlank ++ '(' :: tail := by
    rw [← htail]
    exact List.takeWhile_append_dropWhile.symm
  refine ⟨cs.takeWhile isAnnotationChar ++ (cs.dropWhile isAnnotationChar).takeWhile isBlank, tail,
    ?_, ?_, ?_⟩
  · rw [List.append_assoc, ← hrest, List.takeWhile_append_dropWhile]
  · simp only [List.all_append, Bool.and_eq_true, List.all_eq_true]
    refine ⟨⟨fun c hc ↦ ?_, fun c hc ↦ ?_⟩, by simp [isPlain]⟩
    · exact isPlain_of_class (p := isAnnotationChar) (by decide) (List.mem_takeWhile_imp hc)
    · exact isPlain_of_class (p := isBlank) (by decide) (List.mem_takeWhile_imp hc)
  · rw [enclosed?_cons (by decide)] at hnone
    exact Option.map_eq_none_iff.mp hnone

/-- An annotation that is not closed is one in a literal, or its header is cut inside
parentheses. -/
theorem HasOpenArguments.not_nested_or {header : String} (h : HasOpenArguments header) :
    ¬Nested header.toList ∨ ∃ mark ∈ marks header.toList, mark.char = '@' ∧ mark.kind ≠ .code := by
  obtain ⟨more, hreads, hopen⟩ := h
  obtain ⟨before, hbefore⟩ := hreads.suffix
  obtain ⟨front, back, hmarks, -, hback⟩ := List.map_eq_append_iff.mp
    ((textOf_marks header.toList).trans hbefore.symm)
  obtain ⟨mark, back, rfl, hsign, rfl⟩ := List.map_eq_cons_iff.mp hback
  by_cases hkind : mark.kind = .code
  · left
    intro hnested
    obtain ⟨c, kind⟩ := mark
    obtain ⟨rfl, rfl⟩ : c = '@' ∧ kind = .code := ⟨hsign, hkind⟩
    obtain ⟨name, tail, hname, hplain, hnone⟩ := hopen.exists_plain
    have hback : back = codeMarks name ++ ⟨'(', .code⟩ :: marks tail := by
      have hlexes := (lexes_plain hplain).marks_eq tail
      rw [codeMarks_append, List.append_assoc, List.append_assoc] at hlexes
      rw [← (marksFrom_split hmarks).2]
      exact (congrArg marks hname).trans hlexes
    rw [Nested, hmarks, hback, ← List.cons_append, ← List.append_assoc] at hnested
    obtain ⟨inside, rest, _, hclose, _⟩ := 
      exists_closeMarks? (show closerOf? '(' = some ')' from rfl) hnested
    cases hclose.symm.trans hnone
  · exact Or.inr ⟨mark, by rw [hmarks]; simp, hsign, hkind⟩

/-! ### Headers of members -/

def OutlineError.isUnreadableName : OutlineError → Bool
  | .unreadableName .. => true
  | _ => false

/-- The headers into which a class body is cut. -/
def headersOf : Nat → List Mark → List String
  | 0, _ => []
  | fuel + 1, ms =>
      match splitMarks? isMemberEnd ms with
      | none => []
      | some (before, closer, after) =>
          headerOf before :: headersOf fuel
            (if closer == ';' then after
            else ((closeMarks? '\x7b' '\x7d' 0 after).map Prod.snd).getD [])

/-- The marks of the class body from which the members of a source are read. -/
def bodyMarks (cs : List Char) : List Mark :=
  match (findType? none cs).bind fun (_, after) ↦ splitMarks? (· == '\x7b') (marks after) with
  | some (_, _, inside) => ((closeMarks? '\x7b' '\x7d' 0 inside).map Prod.fst).getD []
  | none => marks cs

/-- The headers of the members of a source. -/
def memberHeaders (source : String) : List String :=
  let body := bodyMarks source.toList
  headersOf (body.length + 1) body

/-- Reading headers fails only where a name cannot be read or an annotation is not closed, and it
does fail where an annotation is not closed. -/
structure ReadsHeaders {α : Type} (headers : List String) (found : Except OutlineError α) :
    Prop where
  failure : ∀ e, found = .error e →
    e.isUnreadableName = true ∨ ∃ header ∈ headers, HasOpenArguments header
  success : ∀ a, found = .ok a → ∀ header ∈ headers, ¬ HasOpenArguments header

theorem readsHeaders_nil {α : Type} (a : α) : ReadsHeaders [] (.ok a) where
  failure := by rintro _ ⟨⟩
  success _ _ _ hmem := by cases hmem

theorem ReadsHeaders.append {headers headers' : List String}
    {first second : Except OutlineError (List Member)} (hfirst : ReadsHeaders headers first)
    (hsecond : ReadsHeaders headers' second) :
    ReadsHeaders (headers ++ headers') (do return (← first) ++ (← second)) := by
  have hleft {header : String} (h : header ∈ headers) : header ∈ headers ++ headers' :=
    List.mem_append_left _ h
  have hright {header : String} (h : header ∈ headers') : header ∈ headers ++ headers' :=
    List.mem_append_right _ h
  cases first with
  | error e =>
    refine ⟨fun _ he ↦ ?_, nofun⟩
    cases he
    exact (hfirst.failure e rfl).imp_right fun ⟨header, hheader, hopen⟩ ↦
      ⟨header, hleft hheader, hopen⟩
  | ok found =>
    cases second with
    | error e =>
      refine ⟨fun _ he ↦ ?_, nofun⟩
      cases he
      exact (hsecond.failure e rfl).imp_right fun ⟨header, hheader, hopen⟩ ↦
        ⟨header, hright hheader, hopen⟩
    | ok more =>
      refine ⟨nofun, fun _ _ header hheader ↦ ?_⟩
      rcases List.mem_append.mp hheader with hheader | hheader
      · exact hfirst.success found rfl header hheader
      · exact hsecond.success more rfl header hheader

/-- What is read from the annotations of a header. -/
theorem readsHeaders_splitAnnotations {α : Type} {header : String}
    {read : Header → Except OutlineError α}
    (hread : ∀ parts e, read parts = .error e → e.isUnreadableName = true) :
    ReadsHeaders [header] (splitAnnotations header >>= read) := by
  cases hsplit : splitAnnotations header with
  | error e =>
    refine ⟨fun _ _ ↦ Or.inr ⟨header, List.mem_singleton_self _, ?_⟩, nofun⟩
    exact splitAnnotations_error_iff.mp ⟨e, hsplit⟩
  | ok parts =>
    refine ⟨fun e he ↦ Or.inl (hread parts e he), fun _ _ other hother hopen ↦ ?_⟩
    obtain rfl := List.mem_singleton.mp hother
    obtain ⟨e, he⟩ := splitAnnotations_error_iff.mpr hopen
    cases hsplit.symm.trans he

theorem readsHeaders_fieldMembers (header : String) :
    ReadsHeaders [header] (fieldMembers header) := by
  unfold fieldMembers
  split
  next hempty =>
    refine ⟨nofun, fun _ _ other hother hopen ↦ ?_⟩
    obtain rfl := List.mem_singleton.mp hother
    obtain ⟨rest, hreads, _⟩ := hopen
    rw [String.isEmpty_iff.mp hempty] at hreads
    cases List.suffix_nil.mp hreads.suffix
  next =>
    refine readsHeaders_splitAnnotations fun ⟨annotations, rest⟩ e he ↦ ?_
    dsimp only at he
    split at he <;> cases he

theorem methodOf?_failure {header body : String} {annotations : List AnnotationUse}
    {className : Option String} {e : OutlineError}
    (h : methodOf? header body annotations className = .error e) : e.isUnreadableName = true := by
  simp only [methodOf?] at h
  split at h
  · cases h
  split at h
  · cases h
  split at h
  · cases h
  split at h
  · cases h
    rfl
  · split at h <;> cases h

theorem readsHeaders_blockMembers (className : Option String) (header body : String) :
    ReadsHeaders [header] (blockMembers className header body) := by
  refine readsHeaders_splitAnnotations fun ⟨annotations, rest⟩ e he ↦ ?_
  dsimp only at he
  cases hmethod : methodOf? rest body annotations className with
  | error e' =>
    rw [hmethod] at he
    cases he
    exact methodOf?_failure hmethod
  | ok method => rw [hmethod] at he; cases he

theorem readsHeaders_membersOf (className : Option String) (fuel : Nat) {awaited : List Char}
    {ms : List Mark} (hnest : nest awaited ms = some []) :
    ReadsHeaders (headersOf fuel ms) (membersOf className fuel ms) := by
  induction fuel generalizing awaited ms with
  | zero => exact readsHeaders_nil _
  | succ fuel ih =>
    rw [headersOf, membersOf]
    cases hsplit : splitMarks? isMemberEnd ms with
    | none => exact readsHeaders_nil _
    | some found =>
      obtain ⟨before, closer, after⟩ := found
      obtain ⟨rfl, hcloser, _⟩ := splitMarks?_eq_some hsplit
      rw [isMemberEnd, Bool.or_eq_true, beq_iff_eq, beq_iff_eq] at hcloser
      rcases hcloser with rfl | rfl
      · rw [List.append_cons] at hnest
        obtain ⟨awaited', hafter⟩ := exists_nest_of_append hnest
        exact (readsHeaders_fieldMembers _).append (ih hafter)
      · obtain ⟨inside, rest, awaited', hclose, _, hrest⟩ :=
          exists_closeMarks? (show closerOf? '\x7b' = some '\x7d' from rfl) hnest
        simp only [hclose]
        exact (readsHeaders_blockMembers _ _ _).append (ih hrest)

/-! ### Outlines -/

theorem readsHeaders_bodyOutline (className : Option String) {body : List Mark}
    (hnest : nest [] body = some []) :
    ReadsHeaders (headersOf (body.length + 1) body) (bodyOutline className body) := by
  have hmembers := readsHeaders_membersOf className (body.length + 1) hnest
  unfold bodyOutline
  cases hfound : membersOf className (body.length + 1) body with
  | error e =>
    refine ⟨fun _ he ↦ ?_, nofun⟩
    cases he
    exact hmembers.failure e hfound
  | ok members => exact ⟨nofun, fun _ _ ↦ hmembers.success members hfound⟩

theorem readsHeaders_outline {source : String} (hnested : Nested source.toList)
    (hcode : ¬TypeOutsideCode source.toList) :
    ReadsHeaders (memberHeaders source) (outline source) := by
  rw [outline_eq, memberHeaders, bodyMarks, outlineOf]
  cases hfind : findType? none source.toList with
  | none => exact readsHeaders_bodyOutline none hnested
  | some found =>
    obtain ⟨name, after⟩ := found
    obtain ⟨front, hmarks⟩ := (exists_append_of_findType? hfind).resolve_left hcode
    simp only [Option.map_some, Option.bind_some]
    cases hsplit : splitMarks? (· == '\x7b') (marks after) with
    | none => exact readsHeaders_bodyOutline none hnested
    | some opened =>
      obtain ⟨before, c, inside⟩ := opened
      obtain ⟨hafter, hc, _⟩ := splitMarks?_eq_some hsplit
      obtain rfl : c = '\x7b' := beq_iff_eq.mp hc
      rw [Nested, hmarks, hafter, ← List.append_assoc] at hnested
      obtain ⟨body, rest, _, hclose, hbody, _⟩ :=
        exists_closeMarks? (show closerOf? '\x7b' = some '\x7d' from rfl) hnested
      simp only [Option.map_some, hclose, Option.getD_some]
      exact readsHeaders_bodyOutline (some (String.ofList name)) hbody

/-- A source with nested brackets is outlined, unless its type is declared outside the code or an
annotation of a member is not closed. The latter always fails, and it happens only in headers that
are cut inside parentheses or that have an `@` in a literal. -/
theorem outline_nested (source : String) (hnested : Nested source.toList) :
    TypeOutsideCode source.toList ∨
      ((∃ o, outline source = .ok o) ∨
        (∃ before symbol, outline source = .error (.unreadableName before symbol)) ∨
        ∃ header ∈ memberHeaders source, HasOpenArguments header ∧ (¬Nested header.toList ∨
          ∃ mark ∈ marks header.toList, mark.char = '@' ∧ mark.kind ≠ .code)) ∧
      ((∃ header ∈ memberHeaders source, HasOpenArguments header) →
        ∀ o, outline source ≠ .ok o) := by
  by_cases hcode : TypeOutsideCode source.toList
  · exact Or.inl hcode
  have hreads := readsHeaders_outline hnested hcode
  refine Or.inr ⟨?_, fun ⟨header, hheader, hopen⟩ o ho ↦ hreads.success o ho header hheader hopen⟩
  cases houtline : outline source with
  | ok o => exact Or.inl ⟨o, rfl⟩
  | error e =>
    right
    rcases hreads.failure e houtline with hname | ⟨header, hheader, hopen⟩
    · cases e with
      | unreadableName before symbol => exact Or.inl ⟨before, symbol, rfl⟩
      | unclosedBlock header => cases hname
      | unclosedArguments name => cases hname
    · exact Or.inr ⟨header, hheader, hopen, hopen.not_nested_or⟩

theorem outline_nested_without_literals :
    let source := "class A \x7b @Test(timeout = 5) void m() \x7b \x7d \x7d"
    Nested source.toList ∧ memberHeaders source = ["@Test(timeout = 5) void m()"] ∧
      ∀ header ∈ memberHeaders source, ¬ HasOpenArguments header := by
  intro source
  have hnested : Nested source.toList := by decide +kernel
  have hheaders : memberHeaders source = ["@Test(timeout = 5) void m()"] := by decide +kernel
  refine ⟨hnested, hheaders, fun header hheader hopen ↦ ?_⟩
  rcases outline_nested source hnested with ⟨front, mark, back, hmarks, hkind, _⟩ | ⟨_, hfails⟩
  · have hall : (marks source.toList).all (·.kind == .code) = true := by decide +kernel
    rw [hmarks, List.all_append, List.all_cons] at hall
    simp [hkind] at hall
  · have hok : (outline source).isOk = true := by decide +kernel
    cases houtline : outline source with
    | ok o => exact hfails ⟨header, hheader, hopen⟩ o houtline
    | error e =>
      rw [houtline] at hok
      cases hok

/-- A text after which code goes on: no literal and no comment is left open. -/
def EndsInCode (cs : List Char) : Prop :=
  marks (cs ++ [';']) = marks cs ++ [⟨';', .code⟩]

instance (cs : List Char) : Decidable (EndsInCode cs) :=
  inferInstanceAs (Decidable (_ = _))

/-- Braces in the arguments of an annotation cut its header, although all brackets are nested. -/
theorem annotation_cut_at_brace :
    let source := "class A \x7b @Tags(\x7b\"x\"\x7d) void m() \x7b \x7d \x7d"
    Nested source.toList ∧ EndsInCode source.toList ∧
      outline source = .error (.unclosedArguments "Tags") :=
  ⟨by decide +kernel, by decide +kernel, rfl⟩

end SuiteMigration.Java
