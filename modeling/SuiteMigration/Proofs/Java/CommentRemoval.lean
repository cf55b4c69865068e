import SuiteMigration.Proofs.Java.Members
import SuiteMigration.Proofs.Java.TypeSearch

/-!
Comments and the outline of a source. The members of a class are cut at code characters and their
headers are read without comments, so comments have no part in them. The one reader that looks at
the text of comments is the search for the type: an outline depends on comments only if the search
takes a declaration that starts outside the code, or misses one that has a comment inside.
-/

set_option autoImplicit false
set_option relaxedAutoImplicit false

namespace SuiteMigration.Java

open SuiteMigration.Text

/-- A member without the text of its body, which keeps its comments. -/
def Member.withoutBody : Member → Member
  | .field f => .field f
  | .method m => .method { m with body := "" }

def Outline.withoutBodies (o : Outline) : Outline :=
  { o with members := o.members.map Member.withoutBody }

/-- The type that a source without its comments declares is declared across a comment. -/
def TypeAcrossComment (cs : List Char) : Prop :=
  ∃ front mark back, marks cs = front ++ mark :: back ∧
    typeDeclaration? (textOf (mark :: back)) = none ∧
    (typeDeclaration? (textOf (uncommented (mark :: back)))).isSome = true ∧
    findType? none (stripCommentChars cs) = typeDeclaration? (textOf (uncommented (mark :: back)))

/-! ### Members -/

/-- The members that are found, or the failure, without the text of bodies. -/
def withoutBodies (found : Except OutlineError (List Member)) : Except OutlineError (List Member) :=
  found.map (List.map Member.withoutBody)

theorem withoutBodies_append {first first' second second' : Except OutlineError (List Member)}
    (hfirst : withoutBodies first = withoutBodies first')
    (hsecond : withoutBodies second = withoutBodies second') :
    withoutBodies (do return (← first) ++ (← second)) =
      withoutBodies (do return (← first') ++ (← second')) := by
  have happend (first second : Except OutlineError (List Member)) :
      withoutBodies (do return (← first) ++ (← second)) =
        (do return (← withoutBodies first) ++ (← withoutBodies second)) := by
    cases first with
    | error e => rfl
    | ok found =>
      cases second with
      | error e => rfl
      | ok more => exact congrArg Except.ok List.map_append
  rw [happend, happend, hfirst, hsecond]

/-- A method header is read without the body. -/
theorem methodOf?_eq_map (header body : String) (annotations : List AnnotationUse)
    (className : Option String) :
    methodOf? header body annotations className =
      (methodOf? header "" annotations className).map (Option.map ({ · with body })) := by
  simp only [methodOf?]
  split
  · rfl
  cases breakCode? (· == '(') header.toList with
  | none => rfl
  | some cut =>
    dsimp only
    cases enclosed? '(' ')' ('(' :: cut.2.2) with
    | none => rfl
    | some params =>
      dsimp only
      split
      · rfl
      · split
        · rfl
        · simp only [Except.map, Option.map_some]

theorem withoutBodies_blockMembers (className : Option String) (header body body' : String) :
    withoutBodies (blockMembers className header body) =
      withoutBodies (blockMembers className header body') := by
  unfold blockMembers
  cases splitAnnotations header with
  | error e => simp only [bind, Except.bind]
  | ok read =>
    simp only [bind, Except.bind, methodOf?_eq_map read.rest body,
      methodOf?_eq_map read.rest body']
    cases methodOf? read.rest "" read.annotations className with
    | error e => rfl
    | ok method => cases method <;> rfl

theorem headerOf_uncommented (before : List Mark) :
    headerOf (uncommented before) = headerOf before := by
  rw [headerOf, headerOf, uncommented_uncommented]

/-- The members of a class body and of the body without comments. -/
theorem withoutBodies_membersOf (className : Option String) {fuel fuel' : Nat} {ms : List Mark}
    (hfuel : ms.length < fuel) (hfuel' : (uncommented ms).length < fuel') :
    withoutBodies (membersOf className fuel ms) =
      withoutBodies (membersOf className fuel' (uncommented ms)) := by
  induction fuel generalizing fuel' ms with
  | zero => exact absurd hfuel (Nat.not_lt_zero _)
  | succ fuel ih =>
    obtain ⟨fuel', rfl⟩ := Nat.exists_eq_succ_of_ne_zero (Nat.ne_zero_of_lt hfuel')
    rw [membersOf, membersOf, splitMarks?_uncommented (by decide) (by decide)]
    cases hsplit : splitMarks? isMemberEnd ms with
    | none => rfl
    | some found =>
      obtain ⟨before, closer, after⟩ := found
      obtain ⟨rfl, -, -⟩ := splitMarks?_eq_some hsplit
      simp only [uncommented_append, uncommented_cons_code, List.length_append, List.length_cons]
        at hfuel hfuel'
      simp only [Option.map_some, headerOf_uncommented]
      split
      · exact withoutBodies_append rfl (ih (by omega) (by omega))
      rw [closeMarks?_uncommented (by decide) (by decide)]
      cases hclose : closeMarks? '\x7b' '\x7d' 0 after with
      | none => rfl
      | some block =>
        obtain ⟨inside, rest⟩ := block
        obtain rfl := closeMarks?_eq_some hclose
        simp only [uncommented_append, uncommented_cons_code, List.length_append, List.length_cons]
          at hfuel hfuel'
        exact withoutBodies_append (withoutBodies_blockMembers _ _ _ _) (ih (by omega) (by omega))

/-! ### Outlines -/

theorem withoutBodies_bodyOutline (className : Option String) (body : List Mark) :
    (bodyOutline className body).map Outline.withoutBodies =
      (bodyOutline className (uncommented body)).map Outline.withoutBodies := by
  have hname (found : Except OutlineError (List Member)) :
      (do return (⟨className, ← found⟩ : Outline)).map Outline.withoutBodies =
        (withoutBodies found).map fun members ↦ ⟨className, members⟩ := by
    cases found <;> rfl
  rw [bodyOutline, bodyOutline, hname, hname,
    withoutBodies_membersOf className (Nat.lt_succ_self _) (Nat.lt_succ_self _)]

theorem withoutBodies_outlineOf (ms : List Mark) (declared : Option (List Char × List Mark)) :
    (outlineOf ms declared).map Outline.withoutBodies =
      (outlineOf (uncommented ms) (declared.map fun (name, after) ↦
        (name, uncommented after))).map Outline.withoutBodies := by
  cases declared with
  | none => exact withoutBodies_bodyOutline none ms
  | some found =>
    obtain ⟨name, after⟩ := found
    have hsplit : splitMarks? (· == '\x7b') (uncommented after) = _ :=
      splitMarks?_uncommented (by decide) (by decide) after
    simp only [outlineOf, Option.map_some, Option.bind_some, hsplit]
    cases splitMarks? (· == '\x7b') after with
    | none => exact withoutBodies_bodyOutline none ms
    | some opened =>
      obtain ⟨before, c, inside⟩ := opened
      have hclose : closeMarks? '\x7b' '\x7d' 0 (uncommented inside) = _ :=
        closeMarks?_uncommented (by decide) (by decide) 0 inside
      simp only [Option.map_some, hclose]
      cases closeMarks? '\x7b' '\x7d' 0 inside with
      | none => rfl
      | some block => exact withoutBodies_bodyOutline _ _

/-- Comments have no part in an outline, unless the search for the type reads them. -/
theorem outline_stripComments (source : String) :
    (outline source).map Outline.withoutBodies =
        (outline (stripComments source)).map Outline.withoutBodies ∨
      TypeOutsideCode source.toList ∨ TypeAcrossComment source.toList := by
  have hown := own_marks source.toList
  have hstrip : (stripComments source).toList = textOf (uncommented (marks source.toList)) := by
    rw [stripComments, String.toList_ofList, stripCommentChars, textOf_uncommented]
  have hsame (declared : Option (List Char × List Mark))
      (hdeclared : ∀ found ∈ declared, Own found.2)
      (h : findType? none (textOf (marks source.toList)) =
        declared.map fun (name, after) ↦ (name, textOf after))
      (h' : findType? none (textOf (uncommented (marks source.toList))) =
        (declared.map fun (name, after) ↦ (name, uncommented after)).map fun (name, after) ↦
          (name, textOf after)) :
      (outline source).map Outline.withoutBodies =
        (outline (stripComments source)).map Outline.withoutBodies := by
    have hdeclared' : ∀ found ∈ declared.map fun (name, after) ↦ (name, uncommented after),
        Own found.2 := by
      intro found hfound
      obtain ⟨first, hfirst, rfl⟩ := Option.map_eq_some_iff.mp hfound
      exact (hdeclared first hfirst).uncommented
    rw [outline, outline, hstrip, outlineChars_textOf hown.uncommented h' hdeclared',
      ← withoutBodies_outlineOf, ← outlineChars_textOf hown h hdeclared, textOf_marks]
  have hsearch : TypeSearch none none (marks source.toList) :=
    typeSearch_of_append (List.nil_append _).symm fun _ _ _ ↦ rfl
  cases hsearch with
  | absent h h' => exact Or.inl (hsame none (by rintro _ ⟨⟩) h h')
  | found front after name hms hafter h h' =>
    have hdeclared : ∀ found ∈ some (name, after), Own found.2 := by
      rintro _ ⟨⟩
      exact hafter
    exact Or.inl (hsame _ hdeclared h h')
  | outsideCode front back mark hms hkind hhere h =>
    rw [textOf_marks] at h
    exact Or.inr (Or.inl ⟨front, mark, back, hms, hkind, hhere, h⟩)
  | acrossComment front back mark hms hhere hhere' h' =>
    rw [← hstrip, stripComments, String.toList_ofList] at h'
    exact Or.inr (Or.inr ⟨front, mark, back, hms, hhere, hhere', h'⟩)

/-- A comment that names a type declares it; without the comment the source declares another. -/
theorem comment_declares_type :
    outline "// class A\nclass B \x7b \x7d" = .ok ⟨some "A", []⟩ ∧
      outline (stripComments "// class A\nclass B \x7b \x7d") = .ok ⟨some "B", []⟩ := by
  constructor <;> rfl

example : (outline "class/* */A \x7b \x7d").map Outline.name = .ok none ∧
    (outline (stripComments "class/* */A \x7b \x7d")).map Outline.name = .ok (some "A") := by
  constructor <;> rfl

end SuiteMigration.Java
