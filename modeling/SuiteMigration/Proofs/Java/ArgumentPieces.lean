import SuiteMigration.Java.Argument
import SuiteMigration.Proofs.Text.Words

/-!
The arguments of a list and the parentheses of the list. Which commas separate arguments is decided
by one counter for brackets of all kinds. Angle brackets count too, and the arrow of a lambda or a
comparison closes one that was never opened, so a list can be cut inside the parentheses of a call.
The arguments of a balanced list are balanced exactly if, at every comma inside parentheses, more
brackets have been opened than closed.
-/

set_option autoImplicit false
set_option relaxedAutoImplicit false

namespace SuiteMigration.Java

open SuiteMigration.Text

/-! ### Parentheses outside literals -/

/-- The quotes of string and character literals. -/
def isLiteralQuote (c : Char) : Bool :=
  c == '"' || c == '\x27'

/-- Where a reader of a text stands: with respect to literals, and how many of the parentheses
outside literals are open. -/
structure Reading where
  quotation : Quotation
  parentheses : Nat
  deriving DecidableEq, Repr

namespace Reading

def start : Reading :=
  ⟨.outside, 0⟩

/-- The open parentheses after a character outside literals; none if it closes one that is not
open. -/
def parenthesesAfter? (n : Nat) (c : Char) : Option Nat :=
  if c = '(' then some (n + 1)
  else if c = ')' then
    match n with
    | 0 => none
    | inner + 1 => some inner
  else some n

def next? (r : Reading) (c : Char) : Option Reading :=
  let quotation := r.quotation.next isLiteralQuote c
  if r.quotation = .outside then (parenthesesAfter? r.parentheses c).map (⟨quotation, ·⟩)
  else some ⟨quotation, r.parentheses⟩

def after? (r : Reading) (cs : List Char) : Option Reading :=
  cs.foldlM next? r

theorem after?_cons (r : Reading) (c : Char) (rest : List Char) :
    r.after? (c :: rest) = (r.next? c).bind (after? · rest) :=
  List.foldlM_cons

theorem after?_append (r : Reading) (cs ds : List Char) :
    r.after? (cs ++ ds) = (r.after? cs).bind (after? · ds) :=
  List.foldlM_append

theorem next?_quotation {r r' : Reading} {c : Char} (h : r.next? c = some r') :
    r'.quotation = r.quotation.next isLiteralQuote c := by
  unfold next? at h
  dsimp only at h
  split at h
  · obtain ⟨n, _, rfl⟩ := Option.map_eq_some_iff.mp h
    rfl
  · rw [← Option.some.inj h]

end Reading

/-- A text whose literals are closed and whose parentheses outside literals are balanced. -/
def WellParenthesized (cs : List Char) : Prop :=
  Reading.start.after? cs = some .start

instance (cs : List Char) : Decidable (WellParenthesized cs) :=
  inferInstanceAs (Decidable (_ = _))

/-! ### Brackets of all kinds -/

/-- The characters of a text that stand outside literals. -/
def outsideLiterals : Quotation → List Char → List Char
  | _, [] => []
  | q, c :: rest =>
      if q = .outside then c :: outsideLiterals (q.next isLiteralQuote c) rest
      else outsideLiterals (q.next isLiteralQuote c) rest

/-- How many more brackets are opened than closed outside the literals of a text that is read from
the given state on. -/
def bracketDepth (q : Quotation) (cs : List Char) : Int :=
  (outsideLiterals q cs).countP isOpenBracket - (outsideLiterals q cs).countP isCloseBracket

theorem bracketDepth_nil (q : Quotation) : bracketDepth q [] = 0 := rfl

theorem not_isCloseBracket {c : Char} (h : isOpenBracket c = true) : isCloseBracket c = false := by
  simp only [isOpenBracket, Bool.or_eq_true, beq_iff_eq] at h
  rcases h with ((rfl | rfl) | rfl) | rfl <;> decide

/-- The change of the counter at one character. -/
def bracketChange (q : Quotation) (c : Char) : Int :=
  if q == .outside then if isOpenBracket c then 1 else if isCloseBracket c then -1 else 0 else 0

theorem bracketDepth_cons (q : Quotation) (c : Char) (rest : List Char) :
    bracketDepth q (c :: rest) =
      bracketChange q c + bracketDepth (q.next isLiteralQuote c) rest := by
  unfold bracketDepth bracketChange
  rw [outsideLiterals]
  by_cases hq : q = .outside
  · rw [if_pos hq, if_pos (beq_iff_eq.mpr hq), List.countP_cons, List.countP_cons]
    cases hopen : isOpenBracket c with
    | true =>
      simp only [not_isCloseBracket hopen, if_true, Bool.false_eq_true, if_false]
      omega
    | false =>
      simp only [Bool.false_eq_true, if_false]
      split <;> omega
  · rw [if_neg hq, if_neg (by simpa using hq), Int.zero_add]

theorem bracketChange_comma (q : Quotation) : bracketChange q ',' = 0 := by
  cases q <;> rfl

/-- The counter of a reader of arguments, which it keeps as the number of open brackets. -/
theorem add_bracketChange (q : Quotation) (c : Char) (depth : Int) :
    (if q == .outside then
      if isOpenBracket c then depth + 1 else if isCloseBracket c then depth - 1 else depth
    else depth) = depth + bracketChange q c := by
  unfold bracketChange
  split
  · split
    · rfl
    · split
      · rfl
      · exact (Int.add_zero depth).symm
  · exact (Int.add_zero depth).symm

/-! ### Trimming -/

/-- White space is none of the characters that a reader of literals and parentheses looks at. -/
theorem ne_of_isBlank {c : Char} (h : isBlank c = true) :
    isLiteralQuote c = false ∧ c ≠ '\\' ∧ c ≠ '(' ∧ c ≠ ')' := by
  have hne (d : Char) (hd : isBlank d = false) : c ≠ d := by
    rintro rfl
    rw [h] at hd
    cases hd
  refine ⟨?_, hne _ (by decide), hne _ (by decide), hne _ (by decide)⟩
  simp [isLiteralQuote, hne '"' (by decide), hne '\x27' (by decide)]

namespace Reading

/-- A reader stands inside a literal only behind a quote. -/
def Proper (r : Reading) : Prop :=
  ∀ quote, r.quotation = .inside quote ∨ r.quotation = .escaped quote → isLiteralQuote quote = true

theorem proper_start : start.Proper := by
  rintro quote (h | h) <;> cases h

theorem Proper.next {r r' : Reading} {c : Char} (hr : r.Proper) (h : r.next? c = some r') :
    r'.Proper := by
  intro quote hquote
  rw [next?_quotation h] at hquote
  cases hq : r.quotation with
  | outside =>
    rw [hq] at hquote
    grind [Quotation.next]
  | inside other =>
    have hother := hr other (Or.inl hq)
    rw [hq] at hquote
    grind [Quotation.next]
  | escaped other =>
    have hother := hr other (Or.inr hq)
    rw [hq] at hquote
    grind [Quotation.next]

theorem Proper.after {r r' : Reading} {cs : List Char} (hr : r.Proper)
    (h : r.after? cs = some r') : r'.Proper := by
  induction cs generalizing r with
  | nil =>
    cases h
    exact hr
  | cons c rest ih =>
    rw [after?_cons] at h
    obtain ⟨next, hnext, hrest⟩ := Option.bind_eq_some_iff.mp h
    exact ih (hr.next hnext) hrest

theorem next?_blank {c : Char} (h : isBlank c = true) (n : Nat) :
    next? ⟨.outside, n⟩ c = some ⟨.outside, n⟩ := by
  obtain ⟨hquote, _, hopen, hclose⟩ := ne_of_isBlank h
  simp [next?, parenthesesAfter?, Quotation.next, hquote, hopen, hclose]

/-- White space closes no literal. -/
theorem Proper.eq_of_next?_blank {r : Reading} {c : Char} {n : Nat} (hr : r.Proper)
    (hblank : isBlank c = true) (h : r.next? c = some ⟨.outside, n⟩) : r = ⟨.outside, n⟩ := by
  obtain ⟨hquote, hbackslash, _, _⟩ := ne_of_isBlank hblank
  have hquotation := next?_quotation h
  obtain ⟨q, m⟩ := r
  cases q with
  | outside =>
    rw [next?_blank hblank] at h
    exact Option.some.inj h
  | inside quote =>
    have hother : c ≠ quote := by
      rintro rfl
      rw [hr c (Or.inl rfl)] at hquote
      cases hquote
    simp [Quotation.next, hbackslash, hother] at hquotation
  | escaped quote => cases hquotation

theorem after?_trimStart {cs : List Char} (n : Nat) :
    after? ⟨.outside, n⟩ (Chars.trimStart cs) = after? ⟨.outside, n⟩ cs := by
  induction cs with
  | nil => rfl
  | cons c rest ih =>
    cases hc : isBlank c with
    | true =>
      rw [after?_cons, next?_blank hc, Option.bind_some, ← ih, Chars.trimStart, Chars.trimStart,
        List.dropWhile_cons_of_pos hc]
    | false => rw [Chars.trimStart, List.dropWhile_cons_of_neg (by simp [hc])]

theorem after?_trimEnd {cs : List Char} {n : Nat} (h : start.after? cs = some ⟨.outside, n⟩) :
    start.after? (Chars.trimEnd cs) = some ⟨.outside, n⟩ := by
  induction cs using List.reverseRecOn with
  | nil => exact h
  | append_singleton front c ih =>
    cases hc : isBlank c with
    | true =>
      rw [after?_append] at h
      obtain ⟨r, hfront, hlast⟩ := Option.bind_eq_some_iff.mp h
      rw [after?_cons] at hlast
      obtain ⟨r', hnext, hend⟩ := Option.bind_eq_some_iff.mp hlast
      cases hend
      rw [Chars.trimEnd_concat_of_blank hc]
      refine ih ?_
      rw [hfront, (proper_start.after hfront).eq_of_next?_blank hc hnext]
    | false =>
      have htrim : Chars.trimEnd (front ++ [c]) = front ++ [c] := by
        simp [Chars.trimEnd, Chars.dropEndWhile, hc]
      rw [htrim]
      exact h

/-- Trimming takes nothing away that a reader of literals and parentheses looks at. -/
theorem after?_trim {cs : List Char} {n : Nat} (h : start.after? cs = some ⟨.outside, n⟩) :
    start.after? (Chars.trim cs) = some ⟨.outside, n⟩ := by
  refine after?_trimEnd ?_
  rw [← h]
  exact after?_trimStart 0

end Reading

/-! ### The cuts -/

/-- Inside parentheses every comma finds more brackets opened than closed. The text is read from a
state on; `depth` is what the counter shows at its start. -/
def Guarded (r : Reading) (depth : Int) (cs : List Char) : Prop :=
  ∀ before after n, cs = before ++ ',' :: after → r.after? before = some ⟨.outside, n⟩ → 0 < n →
    0 < depth + bracketDepth r.quotation before

theorem guarded_nil (r : Reading) (depth : Int) : Guarded r depth [] := by
  intro before after n h
  simp at h

theorem guarded_cons {r r' : Reading} {c : Char} (h : r.next? c = some r') (depth : Int)
    (rest : List Char) :
    Guarded r depth (c :: rest) ↔
      (r.quotation = .outside → c = ',' → 0 < r.parentheses → 0 < depth) ∧
        Guarded r' (depth + bracketChange r.quotation c) rest := by
  have hquotation := Reading.next?_quotation h
  constructor
  · intro hguarded
    refine ⟨fun hq hc hn ↦ ?_, fun before after n heq hread hn ↦ ?_⟩
    · have hhere := hguarded [] rest r.parentheses (by rw [hc]; rfl) (by rw [← hq]; rfl) hn
      rwa [bracketDepth_nil, Int.add_zero] at hhere
    · have hthere := hguarded (c :: before) after n (by rw [heq]; rfl)
        (by rw [Reading.after?_cons, h]; exact hread) hn
      rwa [bracketDepth_cons, ← hquotation, ← Int.add_assoc] at hthere
  · rintro ⟨hhere, hthere⟩ before after n heq hread hn
    cases before with
    | nil =>
      obtain ⟨rfl, -⟩ := List.cons.inj heq
      cases hread
      rw [bracketDepth_nil, Int.add_zero]
      exact hhere rfl rfl hn
    | cons d more =>
      obtain ⟨rfl, hmore⟩ := List.cons.inj heq
      rw [Reading.after?_cons, h] at hread
      rw [bracketDepth_cons, ← hquotation, ← Int.add_assoc]
      exact hthere more after n hmore hread hn

/-- The arguments that are still to be cut from a text, the one being read included, are balanced
exactly if the rest of the text is guarded: a cut leaves a balanced argument exactly if no
parenthesis is open there. -/
theorem forall_mem_argumentsFrom_iff {q : Quotation} {n : Nat} (depth : Int)
    {current cs : List Char} (hcurrent : Reading.start.after? current.reverse = some ⟨q, n⟩)
    (hrest : Reading.after? ⟨q, n⟩ cs = some .start) :
    (∀ piece ∈ argumentsFrom q depth current cs, WellParenthesized piece) ↔
      Guarded ⟨q, n⟩ depth cs := by
  induction cs generalizing q n depth current with
  | nil =>
    cases hrest
    refine iff_of_true (fun piece hpiece ↦ ?_) (guarded_nil _ _)
    change piece ∈ if (Chars.trim current.reverse).isEmpty then [] else [_] at hpiece
    split at hpiece
    · cases hpiece
    · rw [List.mem_singleton.mp hpiece]
      exact Reading.after?_trim hcurrent
  | cons c rest ih =>
    rw [Reading.after?_cons] at hrest
    obtain ⟨r, hnext, hrest⟩ := Option.bind_eq_some_iff.mp hrest
    rw [guarded_cons hnext]
    unfold argumentsFrom
    by_cases hcut : (q == .outside && c == ',' && decide (depth ≤ 0)) = true
    · obtain ⟨⟨rfl, rfl⟩, hdepth⟩ : (q = .outside ∧ c = ',') ∧ depth ≤ 0 := by simpa using hcut
      have hargument := Reading.after?_trim hcurrent
      cases hnext
      rw [if_pos hcut, List.forall_mem_cons]
      by_cases hn : n = 0
      · subst hn
        refine and_congr (iff_of_true hargument fun _ _ h ↦ absurd h (Nat.lt_irrefl 0)) ?_
        have hempty : Reading.start.after? ([] : List Char).reverse = some ⟨.outside, 0⟩ := rfl
        exact (ih depth hempty hrest).trans (by rw [bracketChange_comma, Int.add_zero]; rfl)
      · refine iff_of_false (fun h ↦ hn ?_) fun h ↦ ?_
        · have hstart := hargument.symm.trans h.1
          exact congrArg Reading.parentheses (Option.some.inj hstart)
        · have hopen := h.1 rfl rfl (Nat.pos_of_ne_zero hn)
          omega
    · rw [if_neg hcut]
      dsimp only
      rw [add_bracketChange]
      have hread : Reading.start.after? (c :: current).reverse = some r := by
        rw [List.reverse_cons, Reading.after?_append, hcurrent, Option.bind_some,
          Reading.after?_cons, hnext]
        rfl
      obtain ⟨q', m⟩ := r
      obtain rfl : q' = q.next isLiteralQuote c := Reading.next?_quotation hnext
      refine (ih _ hread hrest).trans (and_iff_right fun hq hc hn ↦ ?_).symm
      simpa [hq, hc] using hcut

/-- The arguments of a list whose literals are closed and whose parentheses are balanced are
balanced themselves, and so no comma inside parentheses separates arguments, exactly if every such
comma finds more brackets opened than closed, brackets of all kinds taken together. -/
theorem arguments_balanced_iff (text : String) (h : WellParenthesized text.toList) :
    (∀ arg ∈ splitArguments text, WellParenthesized arg.toList) ↔
      ∀ before after n, text.toList = before ++ ',' :: after →
        Reading.start.after? before = some ⟨.outside, n⟩ → 0 < n →
        0 < bracketDepth .outside before := by
  have hpieces : (∀ arg ∈ splitArguments text, WellParenthesized arg.toList) ↔
      ∀ piece ∈ argumentsFrom .outside 0 [] text.toList, WellParenthesized piece := by
    simp [splitArguments, splitArgumentChars]
  rw [hpieces, forall_mem_argumentsFrom_iff 0 rfl h]
  simp only [Guarded, Reading.start, Int.zero_add]

theorem arguments_balanced_beside_types :
    WellParenthesized "new Pair<K, V>(k, f(a, \")\")), [\x27)\x27]".toList ∧
      ∀ before after n,
        "new Pair<K, V>(k, f(a, \")\")), [\x27)\x27]".toList = before ++ ',' :: after →
        Reading.start.after? before = some ⟨.outside, n⟩ → 0 < n →
        0 < bracketDepth .outside before := by
  have hbalanced : WellParenthesized "new Pair<K, V>(k, f(a, \")\")), [\x27)\x27]".toList := by
    decide
  exact ⟨hbalanced, (arguments_balanced_iff _ hbalanced).mp (by decide +kernel)⟩

/-- The arrow of a lambda counts as a closing bracket, and the call behind it is cut in two. -/
theorem lambda_call_cut :
    WellParenthesized "x -> f(a, b)".toList ∧
      splitArguments "x -> f(a, b)" = ["x -> f(a", "b)"] ∧
      ¬ WellParenthesized "x -> f(a".toList ∧ ¬ WellParenthesized "b)".toList := by
  decide +kernel

end SuiteMigration.Java
