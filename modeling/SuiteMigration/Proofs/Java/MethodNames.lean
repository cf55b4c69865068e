import SuiteMigration.Proofs.Robot.Unbroken

/-!
Methods of an outline. Every method comes from a header, so its name is made of the characters of
simple names, and the names of its parameters hold no line feed.
-/

set_option autoImplicit false
set_option relaxedAutoImplicit false

namespace SuiteMigration.Java

open SuiteMigration.Text SuiteMigration.Chars

theorem exists_of_bind_eq_ok {ε α β : Type} {result : Except ε α} {f : α → Except ε β} {b : β}
    (h : (result >>= f) = .ok b) : ∃ a, result = .ok a ∧ f a = .ok b := by
  cases result with
  | error e => cases h
  | ok a => exact ⟨a, rfl, h⟩

theorem isNameChar_of_methodOf? {header body : String} {annotations : List AnnotationUse}
    {className : Option String} {m : Method}
    (h : methodOf? header body annotations className = .ok (some m)) :
    (∀ c ∈ m.name.toList, isNameChar c = true) ∧ ∃ params, m.params = parameterNames params := by
  unfold methodOf? at h
  split at h
  · cases h
  · split at h
    · cases h
    · split at h
      · cases h
      · dsimp only at h
        split at h
        · cases h
        · split at h
          · cases h
          · rw [← Option.some.inj (Except.ok.inj h)]
            refine ⟨fun c hc ↦ ?_, _, rfl⟩
            rw [String.toList_ofList] at hc
            exact List.mem_takeWhile_imp (List.mem_reverse.mp hc)

theorem unbroken_parameterNames (params : String) :
    ∀ name ∈ parameterNames params, Unbroken name.toList := by
  have hdrop (start : List Char) (fuel : Nat) (cs : List Char) :
      dropStarts start fuel cs <:+ cs := by
    induction fuel generalizing cs with
    | zero => exact List.suffix_rfl
    | succ fuel ih =>
      rw [dropStarts]
      split
      next rest hrest =>
        rw [Chars.eq_append_of_afterStart? hrest]
        exact (ih rest).trans (List.suffix_append _ _)
      next => exact List.suffix_rfl
  intro name hname
  obtain ⟨declaration, _, hname⟩ := List.mem_filterMap.mp hname
  unfold parameterName? at hname
  split at hname
  · cases hname
  · split at hname
    · cases hname
    next word hword =>
      dsimp only at hname
      split at hname
      · cases hname
      · obtain ⟨cs, hcs, rfl⟩ := List.mem_map.mp (List.mem_of_getLast? hword)
        rw [← Option.some.inj hname, String.toList_ofList]
        refine (unbroken_of_mem_words hcs).of_subset fun c hc ↦ ?_
        simpa using (hdrop _ _ _).subset hc

/-- A method among the members that are read at once is declared by a header. -/
theorem exists_methodOf?_of_readMember {className : Option String} {before after rest : List Char}
    {closer : Char} {found : List Member}
    (h : readMember className before closer after = .ok (found, rest)) {m : Method}
    (hm : .method m ∈ found) :
    ∃ header body annotations, methodOf? header body annotations className = .ok (some m) := by
  have hnone {members : List Member} {others : List Char}
      (heq : (.ok (members, others) : Except OutlineError _) = .ok (found, rest))
      (hmembers : .method m ∉ members) : False :=
    hmembers ((Prod.mk.inj (Except.ok.inj heq)).1 ▸ hm)
  unfold readMember at h
  dsimp only at h
  split at h
  next =>
    split at h
    next => exact (hnone h (List.not_mem_nil)).elim
    next =>
      obtain ⟨header, _, h⟩ := exists_of_bind_eq_ok h
      split at h
      · exact (hnone h (List.not_mem_nil)).elim
      · exact (hnone h (by simp)).elim
  next =>
    split at h
    next => cases h
    next block _ =>
      obtain ⟨header, _, h⟩ := exists_of_bind_eq_ok h
      obtain ⟨method, hmethod, h⟩ := exists_of_bind_eq_ok h
      rw [← (Prod.mk.inj (Except.ok.inj h)).1] at hm
      obtain ⟨other, hother, heq⟩ := List.mem_map.mp hm
      rw [Member.method.inj heq, Option.mem_toList] at hother
      exact ⟨_, _, _, hother ▸ hmethod⟩

theorem exists_methodOf?_of_membersFrom {className : Option String} {fuel : Nat} {cs : List Char}
    {found : List Member} (h : membersFrom className fuel cs = .ok found) {m : Method}
    (hm : .method m ∈ found) :
    ∃ header body annotations, methodOf? header body annotations className = .ok (some m) := by
  induction fuel generalizing cs found with
  | zero =>
    rw [← Except.ok.inj h] at hm
    cases hm
  | succ fuel ih =>
    rw [membersFrom] at h
    split at h
    next =>
      rw [← Except.ok.inj h] at hm
      cases hm
    next before closer after _ =>
      obtain ⟨⟨first, rest⟩, hfirst, h⟩ := exists_of_bind_eq_ok h
      obtain ⟨others, hothers, h⟩ := exists_of_bind_eq_ok h
      rw [← Except.ok.inj h] at hm
      obtain hm | hm := List.mem_append.mp hm
      · exact exists_methodOf?_of_readMember hfirst hm
      · exact ih hothers hm

/-- Every method of an outline is declared by a header. -/
theorem exists_methodOf?_of_outline {source : String} {o : Outline} (h : outline source = .ok o)
    {m : Method} (hm : m ∈ o.methods) :
    ∃ header body annotations className,
      methodOf? header body annotations className = .ok (some m) := by
  have hmember : .method m ∈ o.members := by
    obtain ⟨member, hmember, hm⟩ := List.mem_filterMap.mp hm
    cases member with
    | field f => cases hm
    | method other => exact Option.some.inj hm ▸ hmember
  have hmembers {className : Option String} {body : List Char}
      (h : (do return ⟨className, ← members className body⟩ : Except OutlineError Outline) =
        .ok o) :
      ∃ header body annotations className,
        methodOf? header body annotations className = .ok (some m) := by
    obtain ⟨found, hfound, h⟩ := exists_of_bind_eq_ok h
    rw [← Except.ok.inj h] at hmember
    obtain ⟨header, body, annotations, hmethod⟩ :=
      exists_methodOf?_of_membersFrom hfound hmember
    exact ⟨header, body, annotations, className, hmethod⟩
  unfold outline outlineChars at h
  dsimp only at h
  split at h
  · split at h
    · cases h
    · exact hmembers h
  · exact hmembers h

end SuiteMigration.Java
