import SuiteMigration.Java.Comment
import SuiteMigration.Java.Delimiter
import SuiteMigration.Proofs.Java.Region

/-!
Bracketed regions of a text that is put together from parts. A search for a closing bracket passes
balanced marks at any depth, and what it finds splits the marks into balanced ones and the rest. So
a block that is closed for itself is closed at the same place inside any other text.
-/

set_option autoImplicit false
set_option relaxedAutoImplicit false

namespace SuiteMigration.Java

variable {opening closing : Char} {mark : Mark} {ms ns : List Mark}

theorem isCode_self (c : Char) : Mark.isCode ⟨c, .code⟩ c = true := by
  simp [Mark.isCode]

theorem isCode_of_ne {c d : Char} (h : c ≠ d) : Mark.isCode ⟨c, .code⟩ d = false := by
  simp [Mark.isCode, h]

/-! ### One mark of a search -/

section Search

variable (depth : Nat) (rest : List Mark)

theorem closeFrom_cons_opening (h : mark.isCode opening = true) :
    closeFrom opening closing depth (mark :: rest) =
      (closeFrom opening closing (depth + 1) rest).map (Cut.push mark.char) := by
  rw [closeFrom.eq_def]
  exact if_pos h

theorem closeFrom_cons_closing (hopening : mark.isCode opening = false)
    (hclosing : mark.isCode closing = true) :
    closeFrom opening closing (depth + 1) (mark :: rest) =
      (closeFrom opening closing depth rest).map (Cut.push mark.char) := by
  simp [closeFrom, hopening, hclosing]

theorem closeFrom_zero_cons_closing (hopening : mark.isCode opening = false)
    (hclosing : mark.isCode closing = true) :
    closeFrom opening closing 0 (mark :: rest) = some ⟨[], textOf rest⟩ := by
  simp [closeFrom, hopening, hclosing]

theorem closeFrom_cons_other (hopening : mark.isCode opening = false)
    (hclosing : mark.isCode closing = false) :
    closeFrom opening closing depth (mark :: rest) =
      (closeFrom opening closing depth rest).map (Cut.push mark.char) := by
  rw [closeFrom.eq_def]
  simp [hopening, hclosing]

end Search

/-! ### Balanced marks -/

def Cut.prepend (cs : List Char) (cut : Cut) : Cut :=
  { cut with before := cs ++ cut.before }

theorem map_push_map_prepend (mark : Mark) (ms : List Mark) (found : Option Cut) :
    (found.map (Cut.prepend (textOf ms))).map (Cut.push mark.char) =
      found.map (Cut.prepend (textOf (mark :: ms))) :=
  Option.map_map ..

/-- Marks that a search for the closing bracket passes without a change of the depth. -/
def Balanced (opening closing : Char) (ms : List Mark) : Prop :=
  ∀ depth rest, closeFrom opening closing depth (ms ++ rest) =
    (closeFrom opening closing depth rest).map (Cut.prepend (textOf ms))

theorem balanced_nil : Balanced opening closing [] :=
  fun _ _ ↦ Option.map_id'.symm

theorem Balanced.append (hms : Balanced opening closing ms) (hns : Balanced opening closing ns) :
    Balanced opening closing (ms ++ ns) := by
  intro depth rest
  rw [List.append_assoc, hms, hns, Option.map_map, textOf_append]
  congr 1
  funext cut
  simp [Cut.prepend]

theorem balanced_of_no_bracket
    (h : ∀ mark ∈ ms, mark.isCode opening = false ∧ mark.isCode closing = false) :
    Balanced opening closing ms := by
  induction ms with
  | nil => exact balanced_nil
  | cons mark rest ih =>
    intro depth tail
    obtain ⟨hopening, hclosing⟩ := h mark List.mem_cons_self
    rw [List.cons_append, closeFrom_cons_other _ _ hopening hclosing,
      ih fun m hm ↦ h m (List.mem_cons_of_mem _ hm), map_push_map_prepend]

/-- The brackets around balanced marks are balanced. -/
theorem Balanced.bracketed (hne : opening ≠ closing) (h : Balanced opening closing ms) :
    Balanced opening closing (⟨opening, .code⟩ :: (ms ++ [⟨closing, .code⟩])) := by
  intro depth rest
  rw [List.cons_append, closeFrom_cons_opening _ _ (isCode_self opening), List.append_assoc, h,
    map_push_map_prepend, List.singleton_append,
    closeFrom_cons_closing _ _ (isCode_of_ne hne.symm) (isCode_self closing), Option.map_map,
    ← List.cons_append, textOf_append]
  congr 1
  funext cut
  simp [Cut.prepend, Cut.push, textOf]

/-- The bracket after balanced marks is the one that is found. -/
theorem Balanced.closeFrom_eq (hne : opening ≠ closing) (h : Balanced opening closing ms)
    (rest : List Mark) : closeFrom opening closing 0 (ms ++ ⟨closing, .code⟩ :: rest) =
      some ⟨textOf ms, textOf rest⟩ := by
  rw [h, closeFrom_zero_cons_closing _ (isCode_of_ne hne.symm) (isCode_self closing)]
  simp [Cut.prepend]

/-- What a search for a closing bracket finds: the bracket is code, the texts are those of the marks
around it, and the marks before it close the inner brackets that are open and no more. -/
theorem closeFrom_eq_some {depth : Nat} {cut : Cut}
    (h : closeFrom opening closing depth ms = some cut) :
    ∃ before after, ms = before ++ ⟨closing, .code⟩ :: after ∧ textOf before = cut.before ∧
      ∀ outer rest, closeFrom opening closing (depth + outer) (before ++ rest) =
        (closeFrom opening closing outer rest).map (Cut.prepend (textOf before)) := by
  induction ms generalizing depth cut with
  | nil => cases h
  | cons mark more ih =>
    -- a mark before the bracket leads from one depth to another, whatever is open around it
    have hstep (next : Nat) (hfound : (closeFrom opening closing next more).map
        (Cut.push mark.char) = some cut)
        (hnext : ∀ outer rest, closeFrom opening closing (depth + outer) (mark :: rest) =
          (closeFrom opening closing (next + outer) rest).map (Cut.push mark.char)) :
        ∃ before after, mark :: more = before ++ ⟨closing, .code⟩ :: after ∧
          textOf before = cut.before ∧
          ∀ outer rest, closeFrom opening closing (depth + outer) (before ++ rest) =
            (closeFrom opening closing outer rest).map (Cut.prepend (textOf before)) := by
      obtain ⟨inner, hinner, rfl⟩ := Option.map_eq_some_iff.mp hfound
      obtain ⟨before, after, rfl, hbefore, hpass⟩ := ih hinner
      refine ⟨mark :: before, after, rfl, congrArg _ hbefore, fun outer rest ↦ ?_⟩
      rw [List.cons_append, hnext, hpass, map_push_map_prepend]
    cases hopening : mark.isCode opening with
    | true =>
      rw [closeFrom_cons_opening _ _ hopening] at h
      refine hstep _ h fun outer rest ↦ ?_
      rw [closeFrom_cons_opening _ _ hopening, Nat.add_right_comm]
    | false =>
      cases hclosing : mark.isCode closing with
      | false =>
        rw [closeFrom_cons_other _ _ hopening hclosing] at h
        exact hstep _ h fun outer rest ↦ closeFrom_cons_other _ _ hopening hclosing
      | true =>
        cases depth with
        | succ inner =>
          rw [closeFrom_cons_closing _ _ hopening hclosing] at h
          refine hstep _ h fun outer rest ↦ ?_
          rw [Nat.add_right_comm, closeFrom_cons_closing _ _ hopening hclosing]
        | zero =>
          rw [closeFrom_zero_cons_closing _ hopening hclosing] at h
          rw [Mark.isCode, Bool.and_eq_true, beq_iff_eq, beq_iff_eq] at hclosing
          obtain rfl : mark = ⟨closing, .code⟩ := by rw [← hclosing.1, ← hclosing.2]
          refine ⟨[], more, rfl, congrArg Cut.before (Option.some.inj h), fun outer rest ↦ ?_⟩
          rw [Nat.zero_add]
          exact balanced_nil outer rest

/-! ### Bracketed regions -/

theorem enclosed?_eq_some {cs : List Char} (hne : opening ≠ closing)
    (h : Balanced opening closing ms)
    (hmarks : marks cs = ⟨opening, .code⟩ :: (ms ++ ⟨closing, .code⟩ :: ns)) :
    enclosed? opening closing cs = some ⟨textOf ms, textOf ns⟩ := by
  rw [enclosed?, hmarks]
  exact (if_pos (isCode_self opening)).trans (h.closeFrom_eq hne ns)

theorem enclosed?_of_scanBlock? {body : String}
    (h : (scanBlock? ("\x7b" ++ body ++ "\x7d") 0).map Delimited.body = some body) :
    ∃ cut, enclosed? '\x7b' '\x7d' ('\x7b' :: (body.toList ++ ['\x7d'])) = some cut ∧
      cut.before = body.toList := by
  have hchars : ("\x7b" ++ body ++ "\x7d").toList = '\x7b' :: (body.toList ++ ['\x7d']) := by simp
  have hbytes : Chars.dropBytes 0 ('\x7b' :: (body.toList ++ ['\x7d'])) =
      ([], '\x7b' :: (body.toList ++ ['\x7d'])) := by
    rw [Chars.dropBytes]
    exact List.cons_ne_nil _ _
  simp only [scanBlock?, scanDelimited?, hchars, hbytes, Option.map_map,
    Option.map_eq_some_iff] at h
  obtain ⟨cut, hcut, hbody⟩ := h
  exact ⟨cut, hcut, by simp [← hbody]⟩

/-- A brace block that is closed for itself has the same marks whatever follows it. -/
theorem lexes_block {body : List Char} {cut : Cut}
    (h : enclosed? '\x7b' '\x7d' ('\x7b' :: (body ++ ['\x7d'])) = some cut)
    (hcut : cut.before = body) :
    ∃ ms, textOf ms = body ∧ Balanced '\x7b' '\x7d' ms ∧
      Lexes .code ('\x7b' :: (body ++ ['\x7d']))
        (⟨'\x7b', .code⟩ :: (ms ++ [⟨'\x7d', .code⟩])) .code := by
  have hopen : Lexes .code ['\x7b'] [⟨'\x7b', .code⟩] .code := lexes_plain (by decide)
  obtain ⟨ms, kind, after, hlexes, hkind⟩ := lexesToBrace .code body
  have htext : textOf ms = body := by
    have := hlexes.textOf_eq
    rw [textOf_append] at this
    exact List.append_cancel_right this
  have hmarks : marks ('\x7b' :: (body ++ ['\x7d'])) =
      ⟨'\x7b', .code⟩ :: (ms ++ [⟨'\x7d', kind⟩]) := by
    have := hopen.append hlexes []
    simpa [marks] using this
  rw [enclosed?, hmarks] at h
  obtain ⟨before, rest, hsplit, hbefore, hpass⟩ :=
    closeFrom_eq_some ((if_pos (isCode_self '\x7b')).symm.trans h)
  -- the bracket that is found is the last mark, since the texts before them are the same
  have hlength : ms.length = before.length := by
    have := congrArg List.length (htext.trans (hcut.symm.trans hbefore.symm))
    simpa [textOf] using this
  obtain ⟨rfl, hbrace⟩ := List.append_inj hsplit hlength
  obtain rfl : kind = .code := congrArg Mark.kind (List.cons.inj hbrace).1
  obtain rfl := hkind rfl
  refine ⟨ms, htext, fun depth tail ↦ ?_, hopen.append hlexes⟩
  have := hpass depth tail
  rwa [Nat.zero_add] at this

/-! ### The first code character of a kind -/

theorem breakMarks?_append {p : Char → Bool} {found : Char} (hfound : p found = true)
    (h : ∀ mark ∈ ms, (mark.kind == .code && p mark.char) = false) (rest : List Mark) :
    breakMarks? p (ms ++ ⟨found, .code⟩ :: rest) = some (textOf ms, found, textOf rest) := by
  induction ms with
  | nil => simp [breakMarks?, hfound, textOf]
  | cons mark more ih =>
    rw [List.cons_append, breakMarks?, h mark List.mem_cons_self, if_neg Bool.false_ne_true,
      ih fun m hm ↦ h m (List.mem_cons_of_mem _ hm)]
    rfl

/-! ### Plain code -/

section Plain

variable {before after : List Char}

theorem breakCode?_plain {p : Char → Bool} {found : Char}
    (hplain : (before ++ found :: after).all isPlain = true) (hfound : p found = true)
    (hbefore : ∀ c ∈ before, p c = false) :
    breakCode? p (before ++ found :: after) = some (before, found, after) := by
  have hmarks : ∀ mark ∈ codeMarks before, (mark.kind == .code && p mark.char) = false := by
    intro mark hmark
    obtain ⟨c, hc, rfl⟩ := List.mem_map.mp hmark
    simpa using hbefore c hc
  rw [breakCode?, marks_plain hplain, codeMarks_append, codeMarks_cons]
  simpa using breakMarks?_append hfound hmarks (codeMarks after)

theorem enclosed?_plain (hne : opening ≠ closing)
    (hplain : (opening :: (before ++ closing :: after)).all isPlain = true)
    (hopening : opening ∉ before) (hclosing : closing ∉ before) :
    enclosed? opening closing (opening :: (before ++ closing :: after)) =
      some ⟨before, after⟩ := by
  have hbalanced : Balanced opening closing (codeMarks before) := by
    refine balanced_of_no_bracket fun mark hmark ↦ ?_
    obtain ⟨c, hc, rfl⟩ := List.mem_map.mp hmark
    exact ⟨isCode_of_ne (ne_of_mem_of_not_mem hc hopening),
      isCode_of_ne (ne_of_mem_of_not_mem hc hclosing)⟩
  have hmarks := marks_plain hplain
  rw [codeMarks_cons, codeMarks_append, codeMarks_cons] at hmarks
  simpa using enclosed?_eq_some hne hbalanced hmarks

end Plain

/-! ### Comments -/

/-- Marks without comments. -/
theorem stripCommentChars_eq_self {cs : List Char}
    (h : ∀ mark ∈ marks cs, mark.kind = .code ∨ mark.kind = .literal) :
    stripCommentChars cs = cs := by
  have hkept : ∀ mark ∈ marks cs, mark.withoutComment = [mark.char] := by
    intro mark hmark
    rcases h mark hmark with hkind | hkind <;> rw [Mark.withoutComment, hkind]
  calc stripCommentChars cs = (marks cs).flatMap fun mark ↦ [mark.char] :=
        List.flatMap_congr hkept
    _ = textOf (marks cs) := (List.map_eq_flatMap ..).symm
    _ = cs := textOf_marks cs

end SuiteMigration.Java
