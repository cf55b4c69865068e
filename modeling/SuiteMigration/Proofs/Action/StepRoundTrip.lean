import SuiteMigration.Action.StepDefinition
import SuiteMigration.Proofs.Java.Annotation

/-!
Step definitions that are written out as a class are read back as they were. Patterns may hold any
text and bodies any text that closes its own braces; the search for the class, for its members, for
the annotations and for the parameters all find the places where the parts were put together.
-/

set_option autoImplicit false
set_option relaxedAutoImplicit false

namespace SuiteMigration

open SuiteMigration.Java SuiteMigration.Text

/-! ### Classes of step definitions -/

def StepKind.identifier (kind : StepKind) : Identifier where
  text := kind.label
  valid := by cases kind <;> decide

/-- A method with a step annotation. The braces around the body enclose the body. -/
structure StepMethod where
  kind : StepKind
  pattern : String
  name : Identifier
  params : List Identifier
  body : String
  not_keyword : isControlKeyword name.text = false
  enclosed : (scanBlock? ("\x7b" ++ body ++ "\x7d") 0).map Delimited.body = some body

namespace StepMethod

/-- The text before the block. -/
def header (m : StepMethod) : String :=
  annotationText m.kind.identifier m.pattern ++ " " ++ signature m.name m.params ++ " "

def source (m : StepMethod) : String :=
  m.header ++ "\x7b" ++ m.body ++ "\x7d"

/-- What the method is read as. -/
def method (m : StepMethod) (className : Option String) : Method where
  name := m.name.text
  params := m.params.map Identifier.text
  body := m.body
  annotations := [⟨m.kind.label, String.ofList (quoted m.pattern.toList)⟩]
  isPublic := true
  isConstructor := className == some m.name.text

def definition (m : StepMethod) : StepDefinition where
  kind := m.kind
  pattern := m.pattern
  methodName := m.name.text
  params := m.params.map Identifier.text
  actions := extractActions m.body []

end StepMethod

/-- A class of methods with step annotations. -/
def classSource (name : Identifier) (methods : List StepMethod) : String :=
  "class " ++ name.text ++ " \x7b" ++ String.join (methods.map StepMethod.source) ++ "\x7d"

/-! ### One method -/

namespace StepMethod

variable (m : StepMethod)

theorem toList_header : m.header.toList = (annotationText m.kind.identifier m.pattern).toList ++
    ' ' :: ((signature m.name m.params).toList ++ [' ']) := by
  unfold header
  simp

theorem toList_source :
    m.source.toList = m.header.toList ++ '\x7b' :: (m.body.toList ++ ['\x7d']) := by
  unfold source
  simp

def headerMarks : List Mark :=
  annotationMarks m.kind.identifier m.pattern ++
    codeMarks (' ' :: ((signature m.name m.params).toList ++ [' ']))

theorem lexes_header : Lexes .code m.header.toList m.headerMarks .code := by
  rw [toList_header]
  refine (lexes_annotationText _ _).append (lexes_plain ?_)
  rw [List.all_cons, List.all_append, all_isPlain_signature]
  decide

/-- A header holds literals and, as code, the sign of the annotation and what a signature is made
of. -/
theorem mem_headerMarks {mark : Mark} (h : mark ∈ m.headerMarks) :
    mark.kind = .literal ∨
      mark.kind = .code ∧ (mark.char = '@' ∨ isSignatureSymbol mark.char = true) := by
  simp only [headerMarks, annotationMarks, codeMarks, literalMarks, List.mem_append,
    List.mem_map] at h
  rcases h with (⟨c, hc, rfl⟩ | ⟨c, _, rfl⟩ | ⟨c, hc, rfl⟩) | ⟨c, hc, rfl⟩
  · refine Or.inr ⟨rfl, ?_⟩
    simp only [List.mem_cons, List.mem_append, List.not_mem_nil, or_false] at hc
    rcases hc with hc | hc | rfl
    · exact Or.inl hc
    · simp [isSignatureSymbol, m.kind.identifier.isIdentifierChar c hc]
    · simp [isSignatureSymbol]
  · exact Or.inl rfl
  · obtain rfl := List.mem_singleton.mp hc
    exact Or.inr ⟨rfl, Or.inr (by decide)⟩
  · refine Or.inr ⟨rfl, Or.inr ?_⟩
    simp only [List.mem_cons, List.mem_append, List.not_mem_nil, or_false] at hc
    rcases hc with rfl | hc | rfl
    · decide
    · exact isSignatureSymbol_of_mem hc
    · decide

theorem isCode_of_mem_headerMarks {mark : Mark} (h : mark ∈ m.headerMarks) {c : Char}
    (hsign : c ≠ '@') (hc : isSignatureSymbol c = false) : mark.isCode c = false := by
  refine eq_false_of_ne_true fun hcode ↦ ?_
  simp only [Mark.isCode, Bool.and_eq_true, beq_iff_eq] at hcode
  obtain ⟨hkind, rfl⟩ := hcode
  rcases m.mem_headerMarks h with hliteral | ⟨_, hchar | hchar⟩
  · simp [hkind] at hliteral
  · exact hsign hchar
  · simp [hc] at hchar

theorem lexes_body : ∃ ms, textOf ms = m.body.toList ∧ Balanced '\x7b' '\x7d' ms ∧
    Lexes .code ('\x7b' :: (m.body.toList ++ ['\x7d']))
      (⟨'\x7b', .code⟩ :: (ms ++ [⟨'\x7d', .code⟩])) .code := by
  obtain ⟨cut, hcut, hbefore⟩ := enclosed?_of_scanBlock? m.enclosed
  exact lexes_block hcut hbefore

/-- A method closes the braces that it opens. -/
theorem lexes_source : ∃ ms, Balanced '\x7b' '\x7d' ms ∧ Lexes .code m.source.toList ms .code := by
  obtain ⟨ms, _, hbalanced, hlexes⟩ := m.lexes_body
  have hheader : Balanced '\x7b' '\x7d' m.headerMarks := by
    refine balanced_of_no_bracket fun mark hmark ↦ ?_
    constructor
    · exact m.isCode_of_mem_headerMarks hmark (by decide) (by decide)
    · exact m.isCode_of_mem_headerMarks hmark (by decide) (by decide)
  refine ⟨_, hheader.append (hbalanced.bracketed (by decide)), ?_⟩
  rw [toList_source]
  exact m.lexes_header.append hlexes

theorem stripCommentChars_header : stripCommentChars m.header.toList = m.header.toList := by
  have hmarks : marks m.header.toList = m.headerMarks := by
    simpa [marks] using m.lexes_header []
  refine stripCommentChars_eq_self fun mark hmark ↦ ?_
  rw [hmarks] at hmark
  exact (m.mem_headerMarks hmark).symm.imp_left And.left

theorem trim_header : Chars.trim m.header.toList =
    (annotationText m.kind.identifier m.pattern ++ (" " ++ signature m.name m.params)).toList := by
  have hspaced := spaced_signature m.name m.params
  obtain ⟨c, rest, hsignature, _⟩ := hspaced.exists_cons
  obtain ⟨cs, hcs⟩ : ∃ cs, (annotationText m.kind.identifier m.pattern ++
      (" " ++ signature m.name m.params)).toList = '@' :: cs := by
    simp [toList_annotationText]
  have hlast : ∀ c ∈ ('@' :: cs).getLast?, isBlank c = false := by
    rw [← hcs]
    simpa [hsignature] using hspaced.isBlank_getLast
  have hheader : m.header.toList = ('@' :: cs) ++ [' '] := by
    rw [← hcs, toList_header]
    simp
  rw [hheader, hcs]
  calc Chars.trim ('@' :: cs ++ [' ']) = Chars.trimEnd ('@' :: cs ++ [' ']) := rfl
    _ = Chars.trimEnd ('@' :: cs) := Chars.trimEnd_concat_of_blank isBlank_space _
    _ = Chars.trim ('@' :: cs) := rfl
    _ = '@' :: cs := Chars.trim_eq_self (fun c hc ↦ Option.some.inj hc ▸ by decide) hlast

theorem splitAnnotations_header :
    splitAnnotations (annotationText m.kind.identifier m.pattern ++
        (" " ++ signature m.name m.params)) =
      .ok ⟨[⟨m.kind.label, String.ofList (quoted m.pattern.toList)⟩],
        signature m.name m.params⟩ := by
  have hchars : (" " ++ signature m.name m.params).toList =
      ' ' :: (signature m.name m.params).toList := by
    simp
  have hcollapse : collapse (" " ++ signature m.name m.params) = signature m.name m.params := by
    rw [collapse, hchars, Chars.collapse, Chars.words_cons_blank isBlank_space, ← Chars.collapse,
      (spaced_signature m.name m.params).collapse_eq, String.ofList_toList]
  have hnone {c : Char} (hspace : c ≠ ' ') (hc : isSignatureSymbol c = false) :
      c ∉ (" " ++ signature m.name m.params).toList := by
    intro h
    rw [hchars, List.mem_cons] at h
    rcases h with h | h
    · exact hspace h
    · simp [isSignatureSymbol_of_mem h] at hc
  have hsplit := splitAnnotations_annotated m.kind.identifier m.pattern
    (hnone (c := '"') (by decide) (by decide)) (hnone (c := '@') (by decide) (by decide))
  rwa [hcollapse] at hsplit

/-- The header and the block of a method are read as the method. -/
theorem readMember_header (className : Option String) {block after : List Char}
    (hblock : enclosed? '\x7b' '\x7d' ('\x7b' :: block) = some ⟨m.body.toList, after⟩) :
    readMember className m.header.toList '\x7b' block =
      .ok ([.method (m.method className)], after) := by
  have hmethod := methodOf?_signature m.params m.not_keyword m.body
    [⟨m.kind.label, String.ofList (quoted m.pattern.toList)⟩] className
  unfold readMember
  rw [stripCommentChars_header, trim_header, String.ofList_toList, if_neg (by decide), hblock]
  simp only [splitAnnotations_header, hmethod, String.ofList_toList, bind, Except.bind]
  rfl

/-- A method at the start of a class body. -/
theorem membersFrom_source (className : Option String) (fuel : Nat) (rest : List Char) :
    membersFrom className (fuel + 1) (m.source.toList ++ rest) =
      (membersFrom className fuel rest).map (.method (m.method className) :: ·) := by
  obtain ⟨ms, hbody, hbalanced, hlexes⟩ := m.lexes_body
  have hmarks : marks ('\x7b' :: (m.body.toList ++ '\x7d' :: rest)) =
      ⟨'\x7b', .code⟩ :: (ms ++ ⟨'\x7d', .code⟩ :: marks rest) := by
    simpa using hlexes.marks_eq rest
  have hblock : enclosed? '\x7b' '\x7d' ('\x7b' :: (m.body.toList ++ '\x7d' :: rest)) =
      some ⟨m.body.toList, rest⟩ := by
    simpa [hbody] using enclosed?_eq_some (by decide) hbalanced hmarks
  have hbreak : breakCode? (fun c ↦ c == ';' || c == '\x7b') (m.source.toList ++ rest) =
      some (m.header.toList, '\x7b', m.body.toList ++ '\x7d' :: rest) := by
    have hsource : m.source.toList ++ rest =
        m.header.toList ++ '\x7b' :: (m.body.toList ++ '\x7d' :: rest) := by
      simp [toList_source]
    have hnone : ∀ mark ∈ m.headerMarks,
        (mark.kind == .code && (mark.char == ';' || mark.char == '\x7b')) = false := by
      intro mark hmark
      have hsemicolon := m.isCode_of_mem_headerMarks hmark (c := ';') (by decide) (by decide)
      have hbrace := m.isCode_of_mem_headerMarks hmark (c := '\x7b') (by decide) (by decide)
      rw [Bool.and_or_distrib_left]
      exact Bool.or_eq_false_iff.mpr ⟨hsemicolon, hbrace⟩
    rw [breakCode?, hsource, m.lexes_header.marks_eq, hmarks,
      breakMarks?_append (by decide) hnone, m.lexes_header.textOf_eq, textOf_append, hbody,
      textOf_cons, textOf_marks]
  have hbind (more : Except OutlineError (List Member)) :
      (do return [Member.method (m.method className)] ++ (← more)) =
        more.map (.method (m.method className) :: ·) := by
    cases more <;> rfl
  rw [membersFrom, hbreak]
  simp only [m.readMember_header className hblock]
  exact hbind _

end StepMethod

/-! ### The class -/

/-- The body of a class. -/
def methodsSource (methods : List StepMethod) : List Char :=
  methods.flatMap fun m ↦ m.source.toList

theorem membersFrom_methodsSource (className : Option String) {methods : List StepMethod}
    {fuel : Nat} (hfuel : methods.length ≤ fuel) :
    membersFrom className fuel (methodsSource methods) =
      .ok (methods.map fun m ↦ .method (m.method className)) := by
  induction methods generalizing fuel with
  | nil => cases fuel <;> rfl
  | cons m rest ih =>
    cases fuel with
    | zero => simp at hfuel
    | succ fuel =>
      have hrest := ih (show rest.length ≤ fuel by simpa using hfuel)
      rw [methodsSource, List.flatMap_cons, m.membersFrom_source, ← methodsSource, hrest]
      rfl

theorem length_le_methodsSource (methods : List StepMethod) :
    methods.length ≤ (methodsSource methods).length := by
  induction methods with
  | nil => simp
  | cons m rest ih =>
    have hsource : 0 < m.source.toList.length := by
      rw [m.toList_source, List.length_append, List.length_cons]
      omega
    simp only [methodsSource, List.flatMap_cons, List.length_append, List.length_cons] at ih ⊢
    omega

theorem lexes_methodsSource (methods : List StepMethod) :
    ∃ ms, Balanced '\x7b' '\x7d' ms ∧ Lexes .code (methodsSource methods) ms .code := by
  induction methods with
  | nil => exact ⟨[], balanced_nil, fun _ ↦ rfl⟩
  | cons m rest ih =>
    obtain ⟨ms, hbalanced, hlexes⟩ := m.lexes_source
    obtain ⟨others, hothers, hrest⟩ := ih
    exact ⟨ms ++ others, hbalanced.append hothers, hlexes.append hrest⟩

theorem toList_classSource (name : Identifier) (methods : List StepMethod) :
    (classSource name methods).toList = "class".toList ++ ' ' :: (name.chars ++
      ' ' :: '\x7b' :: (methodsSource methods ++ ['\x7d'])) := by
  unfold classSource
  simp [Identifier.chars, methodsSource, List.flatMap_map]

theorem identifier?_chars (name : Identifier) (rest : List Char) :
    identifier? (name.chars ++ ' ' :: rest) = some (name.chars, ' ' :: rest) := by
  obtain ⟨c, more, hchars, hstart, hmore⟩ := name.exists_cons
  obtain ⟨htake, hdrop⟩ := Chars.span_append
    (fun d hd ↦ (nameClasses (hmore d hd)).word) (c := ' ') (by decide) rest
  rw [hchars, List.cons_append, identifier?, if_pos hstart, htake, hdrop]

theorem findType?_class (name : Identifier) (rest : List Char) :
    findType? none ("class".toList ++ ' ' :: (name.chars ++ ' ' :: rest)) =
      some (name.chars, ' ' :: rest) := by
  have hblanks : skipBlanks? (' ' :: (name.chars ++ ' ' :: rest)) =
      some (name.chars ++ ' ' :: rest) := by
    obtain ⟨c, more, hchars, _⟩ := name.exists_cons
    have hc : isBlank c = false := name.isBlank c (hchars ▸ List.mem_cons_self)
    simp [skipBlanks?, isBlank_space, Chars.trimStart, hchars, hc]
  have hdeclaration : typeDeclaration? ("class".toList ++ ' ' :: (name.chars ++ ' ' :: rest)) =
      some (name.chars, ' ' :: rest) := by
    rw [typeDeclaration?, List.findSome?_cons, Chars.afterStart?_append]
    simp [hblanks, identifier?_chars]
  have hfirst {c : Char} {cs : List Char} {found : List Char × List Char}
      (h : typeDeclaration? (c :: cs) = some found) : findType? none (c :: cs) = some found := by
    rw [findType?]
    simp [atWordStart, h]
  have hkeyword : "class".toList = 'c' :: ['l', 'a', 's', 's'] := by simp
  rw [hkeyword, List.cons_append] at hdeclaration ⊢
  exact hfirst hdeclaration

/-- A class of step methods is outlined as it was written. -/
theorem outline_classSource (name : Identifier) (methods : List StepMethod) :
    outline (classSource name methods) =
      .ok ⟨some name.text, methods.map fun m ↦ .method (m.method (some name.text))⟩ := by
  obtain ⟨ms, hbalanced, hlexes⟩ := lexes_methodsSource methods
  have hopen : Lexes .code ['\x7b'] [⟨'\x7b', .code⟩] .code := lexes_plain (by decide)
  have hbrace (cs : List Char) : breakCode? (· == '\x7b') (' ' :: '\x7b' :: cs) =
      some ([' '], '\x7b', cs) := by
    have hspace : Lexes .code [' '] [⟨' ', .code⟩] .code := lexes_plain (by decide)
    have hmarks : marks (' ' :: '\x7b' :: cs) = [⟨' ', .code⟩] ++ ⟨'\x7b', .code⟩ :: marks cs :=
      (hspace.append hopen).marks_eq cs
    rw [breakCode?, hmarks, breakMarks?_append (by decide) (by decide), textOf_marks]
    rfl
  have hbody : enclosed? '\x7b' '\x7d' ('\x7b' :: (methodsSource methods ++ ['\x7d'])) =
      some ⟨methodsSource methods, []⟩ := by
    have hclose : Lexes .code ['\x7d'] [⟨'\x7d', .code⟩] .code := lexes_plain (by decide)
    have hmarks : marks ('\x7b' :: (methodsSource methods ++ ['\x7d'])) =
        ⟨'\x7b', .code⟩ :: (ms ++ [⟨'\x7d', .code⟩]) := by
      simpa [marks] using hopen.append (hlexes.append hclose) []
    rw [enclosed?_eq_some (by decide) hbalanced hmarks, hlexes.textOf_eq]
    rfl
  have hmembers : members (some name.text) (methodsSource methods) =
      .ok (methods.map fun m ↦ .method (m.method (some name.text))) :=
    membersFrom_methodsSource _ ((length_le_methodsSource methods).trans (Nat.le_succ _))
  rw [outline, outlineChars, toList_classSource, findType?_class]
  simp [hbrace, hbody, hmembers, Identifier.chars]

theorem stepOfAnnotation?_method (m : StepMethod) (className : Option String) :
    (m.method className).annotations.filterMap (stepOfAnnotation? (m.method className) []) =
      [m.definition] := by
  have hkind : StepKind.ofLabel? m.kind.label = some m.kind := by cases m.kind <;> rfl
  have hpattern := firstLiteral?_quoted m.pattern.toList
  rw [String.ofList_toList] at hpattern
  simp [StepMethod.method, stepOfAnnotation?, AnnotationUse.literal?, hkind, hpattern,
    StepMethod.definition]

/-- The steps of a class that is written out are the steps that were written: one for each method,
in their order, with the same keyword, pattern, name and parameters, and with the actions of the
body. -/
theorem extractSteps_classSource (name : Identifier) (methods : List StepMethod) :
    extractSteps (classSource name methods) = .ok (methods.map StepMethod.definition) := by
  have hmethods : Outline.methods ⟨some name.text,
      methods.map fun m ↦ .method (m.method (some name.text))⟩ =
        methods.map fun m ↦ m.method (some name.text) := by
    simp [Outline.methods, List.filterMap_map]
  have helements : elementNames ⟨some name.text,
      methods.map fun m ↦ .method (m.method (some name.text))⟩ = [] := by
    simp [elementNames, elementDeclarations, Outline.fields, List.filterMap_map]
  rw [extractSteps, outline_classSource, Except.map, stepsOfOutline, helements, hmethods,
    List.flatMap_map]
  simp only [stepOfAnnotation?_method]
  rw [List.map_eq_flatMap]

/-- A pattern and a body with quotes, braces and comment signs of their own. -/
theorem extractSteps_classSource_braces :
    let m : StepMethod :=
      { kind := .whenStep, pattern := "I say \"\x7d\" // \\", name := ⟨"say", by decide⟩,
        params := [⟨"word", by decide⟩, ⟨"times", by decide⟩],
        body := "if (word) \x7b print(\"\x7b\"); \x7d /* \x7d */",
        not_keyword := by decide, enclosed := by decide +kernel }
    let source := "class Talk \x7b@When(\"I say \\\"\x7d\\\" // \\\\\") public void " ++
      "say(String word, String times) \x7bif (word) \x7b print(\"\x7b\"); \x7d /* \x7d */\x7d\x7d"
    classSource ⟨"Talk", by decide⟩ [m] = source ∧ extractSteps source = .ok [m.definition] := by
  intro m source
  have hsource : classSource ⟨"Talk", by decide⟩ [m] = source := by decide +kernel
  exact ⟨hsource, hsource ▸ extractSteps_classSource ⟨"Talk", by decide⟩ [m]⟩

end SuiteMigration
