import SuiteMigration.Proofs.Java.Uncommented

/-!
The outline of a source in terms of its marks. A class body is cut at code characters, and what is
between two cuts has marks of its own; so the members are read from the marks of the body, without
marking any part of it again.
-/

set_option autoImplicit false
set_option relaxedAutoImplicit false

namespace SuiteMigration.Java

open SuiteMigration.Text

/-- The header of a member, without comments. -/
def headerOf (before : List Mark) : String :=
  String.ofList (Chars.trim (textOf (uncommented before)))

/-- What a header before a semicolon declares. -/
def fieldMembers (header : String) : Except OutlineError (List Member) := do
  if header.isEmpty then return []
  let ⟨annotations, rest⟩ ← splitAnnotations header
  if startsWith rest "import " || startsWith rest "package " then return []
  return [.field ⟨annotations, rest⟩]

/-- What a header before a block declares. -/
def blockMembers (className : Option String) (header body : String) :
    Except OutlineError (List Member) := do
  let ⟨annotations, rest⟩ ← splitAnnotations header
  let method ← methodOf? rest body annotations className
  return method.toList.map .method

def isMemberEnd (c : Char) : Bool :=
  c == ';' || c == '\x7b'

/-- The members of a class body with the given marks. -/
def membersOf (className : Option String) : Nat → List Mark → Except OutlineError (List Member)
  | 0, _ => .ok []
  | fuel + 1, ms =>
      match splitMarks? isMemberEnd ms with
      | none => .ok []
      | some (before, closer, after) =>
          if closer == ';' then do
            let found ← fieldMembers (headerOf before)
            return found ++ (← membersOf className fuel after)
          else
            match closeMarks? '\x7b' '\x7d' 0 after with
            | none => .error (.unclosedBlock (shortHeader (headerOf before)))
            | some (inside, rest) => do
                let found ← blockMembers className (headerOf before) (String.ofList (textOf inside))
                return found ++ (← membersOf className fuel rest)

/-! ### Members -/

theorem readMember_semicolon {before : List Mark} (hbefore : Own before)
    (className : Option String) (after : List Char) :
    readMember className (textOf before) ';' after = do
      return (← fieldMembers (headerOf before), after) := by
  unfold readMember fieldMembers headerOf
  rw [hbefore.stripCommentChars_eq]
  simp only [beq_self_eq_true, if_true]
  split
  · rfl
  · cases splitAnnotations (String.ofList (Chars.trim (textOf (uncommented before)))) with
    | error e => rfl
    | ok header =>
      simp only [bind, Except.bind]
      split <;> rfl

theorem readMember_brace {before after : List Mark} (hbefore : Own before) (hafter : Own after)
    (className : Option String) :
    readMember className (textOf before) '\x7b' (textOf after) =
      match closeMarks? '\x7b' '\x7d' 0 after with
      | none => .error (.unclosedBlock (shortHeader (headerOf before)))
      | some (inside, rest) => do
          return (← blockMembers className (headerOf before) (String.ofList (textOf inside)),
            textOf rest) := by
  unfold readMember blockMembers headerOf
  rw [hbefore.stripCommentChars_eq, enclosed?_cons (by decide), hafter]
  cases closeMarks? '\x7b' '\x7d' 0 after with
  | none => rfl
  | some found => simp

theorem membersFrom_textOf (className : Option String) (fuel : Nat) {ms : List Mark} (h : Own ms) :
    membersFrom className fuel (textOf ms) = membersOf className fuel ms := by
  induction fuel generalizing ms with
  | zero => rfl
  | succ fuel ih =>
    have hbreak : breakCode? (fun c ↦ c == ';' || c == '\x7b') (textOf ms) =
        (splitMarks? isMemberEnd ms).map fun cut ↦
          (textOf cut.1, cut.2.1, textOf cut.2.2) := by
      rw [breakCode?, h]
      exact breakMarks?_eq isMemberEnd ms
    rw [membersFrom, membersOf, hbreak]
    cases hsplit : splitMarks? isMemberEnd ms with
    | none => rfl
    | some found =>
      obtain ⟨before, closer, after⟩ := found
      obtain ⟨rfl, hcloser, _⟩ := splitMarks?_eq_some hsplit
      rw [isMemberEnd, Bool.or_eq_true, beq_iff_eq, beq_iff_eq] at hcloser
      rcases hcloser with rfl | rfl
      · simp only [Option.map_some, readMember_semicolon h.left, ih h.right, bind_assoc, pure_bind]
        rfl
      · simp only [Option.map_some, readMember_brace h.left h.right]
        cases hclose : closeMarks? '\x7b' '\x7d' 0 after with
        | none => rfl
        | some block =>
          obtain ⟨inside, rest⟩ := block
          have hrest : Own rest := by
            have hright := h.right
            rw [closeMarks?_eq_some hclose] at hright
            exact hright.right
          simp only [ih hrest, bind_assoc, pure_bind]
          rfl

/-! ### Outlines -/

/-- The outline of a class whose body has the given marks. -/
def bodyOutline (className : Option String) (body : List Mark) : Except OutlineError Outline := do
  return ⟨className, ← membersOf className (body.length + 1) body⟩

/-- The outline of a source with the given marks. If the source declares a type, `declared` is its
name and the marks after the name. -/
def outlineOf (ms : List Mark) (declared : Option (List Char × List Mark)) :
    Except OutlineError Outline :=
  let opened := declared.bind fun (name, after) ↦
    (splitMarks? (· == '\x7b') after).map fun (_, _, inside) ↦ (String.ofList name, inside)
  match opened with
  | some (name, inside) =>
      match closeMarks? '\x7b' '\x7d' 0 inside with
      | none => .error (.unclosedBlock s!"class {name}")
      | some (body, _) => bodyOutline (some name) body
  | none => bodyOutline none ms

theorem members_textOf (className : Option String) {ms : List Mark} (h : Own ms) :
    members className (textOf ms) = membersOf className (ms.length + 1) ms := by
  rw [members, membersFrom_textOf className _ h, textOf, List.length_map]

theorem outlineChars_textOf {ms : List Mark} (h : Own ms)
    {declared : Option (List Char × List Mark)}
    (hfound : findType? none (textOf ms) = declared.map fun (name, after) ↦ (name, textOf after))
    (hdeclared : ∀ found ∈ declared, Own found.2) :
    outlineChars (textOf ms) = outlineOf ms declared := by
  rw [outlineChars, outlineOf, hfound]
  cases declared with
  | none => exact congrArg (· >>= _) (members_textOf none h)
  | some found =>
    obtain ⟨name, after⟩ := found
    have hafter : Own after := hdeclared _ rfl
    have hbreak : breakCode? (· == '\x7b') (textOf after) =
        (splitMarks? (· == '\x7b') after).map fun (before, found, after) ↦
          (textOf before, found, textOf after) := by
      rw [breakCode?, hafter]
      exact breakMarks?_eq _ after
    simp only [Option.map_some, Option.bind_some, Option.bind_eq_bind, hbreak]
    cases hsplit : splitMarks? (· == '\x7b') after with
    | none => exact congrArg (· >>= _) (members_textOf none h)
    | some opened =>
      obtain ⟨before, c, inside⟩ := opened
      obtain ⟨rfl, _, _⟩ := splitMarks?_eq_some hsplit
      have henclosed : enclosed? '\x7b' '\x7d' ('\x7b' :: textOf inside) = _ :=
        enclosed?_cons (by decide) (textOf inside)
      rw [hafter.right] at henclosed
      simp only [Option.map_some, Option.bind_some, Option.pure_def, henclosed]
      cases hclose : closeMarks? '\x7b' '\x7d' 0 inside with
      | none => rfl
      | some block =>
        obtain ⟨body, rest⟩ := block
        have hright := hafter.right
        rw [closeMarks?_eq_some hclose] at hright
        exact congrArg (· >>= _) (members_textOf _ hright.left)

theorem outline_eq (source : String) :
    outline source = outlineOf (marks source.toList)
      ((findType? none source.toList).map fun (name, after) ↦ (name, marks after)) := by
  have hoption {found : Option (List Char × List Char)} :
      found = (found.map fun (name, after) ↦ (name, marks after)).map fun (name, after) ↦
        (name, textOf after) := by
    cases found <;> simp
  refine (congrArg outlineChars (textOf_marks source.toList).symm).trans
    (outlineChars_textOf (own_marks _) ?_ fun found hfound ↦ ?_)
  · rw [textOf_marks]
    exact hoption
  · obtain ⟨declared, _, rfl⟩ := Option.map_eq_some_iff.mp hfound
    exact own_marks _

end SuiteMigration.Java
