import Mathlib.Data.List.Infix
import SuiteMigration.Proofs.Java.ArgumentPieces

/-!
Argument lists that are written by joining arguments. An argument has closed literals, as many
brackets opened as closed, and commas inside brackets or literals only; a reader passes it without
a cut and stands behind it as it stood before. Hence the arguments of a joined list are those that
were joined, whatever their literals hold.
-/

set_option autoImplicit false
set_option relaxedAutoImplicit false

namespace SuiteMigration.Java

open SuiteMigration.Text SuiteMigration.Chars

/-! ### Arguments -/

/-- Where a reader stands behind a text with respect to literals. -/
def Quotation.after (q : Quotation) (cs : List Char) : Quotation :=
  cs.foldl (Quotation.next isLiteralQuote) q

/-- Every comma outside literals stands inside brackets. The text is read from a state on; `depth`
is what the counter of brackets shows at its start. -/
def CommasInside (q : Quotation) (depth : Int) (cs : List Char) : Prop :=
  ∀ before, before ++ [','] <+: cs → q.after before = .outside → 0 < depth + bracketDepth q before

/-- A text that can stand as an argument in a list. Its brackets need not match in kind or order:
the counter may even fall below zero inside it. -/
structure IsArgument (cs : List Char) : Prop where
  ne_nil : cs ≠ []
  trimmed : trim cs = cs
  closed : Quotation.outside.after cs = .outside
  balanced : bracketDepth .outside cs = 0
  commas : CommasInside .outside 0 cs

instance (q : Quotation) (depth : Int) (cs : List Char) : Decidable (CommasInside q depth cs) :=
  decidable_of_iff
    (∀ before ∈ cs.inits, before ++ [','] <+: cs → q.after before = .outside →
      0 < depth + bracketDepth q before) <| by
    refine forall_congr' fun before ↦ ⟨fun h hcomma ↦ ?_, fun h _ ↦ h⟩
    exact h ((List.mem_inits _ _).mpr ((List.prefix_append _ _).trans hcomma)) hcomma

instance (cs : List Char) : Decidable (IsArgument cs) :=
  decidable_of_iff
    (cs ≠ [] ∧ trim cs = cs ∧ Quotation.outside.after cs = .outside ∧
      bracketDepth .outside cs = 0 ∧ CommasInside .outside 0 cs)
    ⟨fun ⟨hne, htrim, hclosed, hbalanced, hcommas⟩ ↦ ⟨hne, htrim, hclosed, hbalanced, hcommas⟩,
      fun h ↦ ⟨h.ne_nil, h.trimmed, h.closed, h.balanced, h.commas⟩⟩

theorem commasInside_cons {q : Quotation} {depth : Int} {c : Char} {rest : List Char}
    (h : CommasInside q depth (c :: rest)) :
    (q = .outside → c = ',' → 0 < depth) ∧
      CommasInside (q.next isLiteralQuote c) (depth + bracketChange q c) rest := by
  constructor
  · rintro hq rfl
    have hhere := h [] (List.prefix_append [','] rest) hq
    rwa [bracketDepth_nil, Int.add_zero] at hhere
  · intro before hcomma houtside
    have hthere := h (c :: before) (List.cons_prefix_cons.mpr ⟨rfl, hcomma⟩) houtside
    rwa [bracketDepth_cons, ← Int.add_assoc] at hthere

/-! ### Reading -/

/-- A character at which the list is not cut becomes part of the argument being read. -/
theorem argumentsFrom_cons {q : Quotation} {depth : Int} {c : Char}
    (h : q = .outside → c = ',' → 0 < depth) (current rest : List Char) :
    argumentsFrom q depth current (c :: rest) =
      argumentsFrom (q.next isLiteralQuote c) (depth + bracketChange q c) (c :: current) rest := by
  have hcut : (q == .outside && c == ',' && decide (depth ≤ 0)) = false := by
    by_cases hq : q = .outside
    · by_cases hc : c = ','
      · have hdepth := h hq hc
        simp [hq, hc, hdepth]
      · simp [hc]
    · simp [hq]
  rw [argumentsFrom, hcut, if_neg Bool.false_ne_true]
  dsimp only
  rw [add_bracketChange]
  rfl

/-- A text without a cut becomes part of the argument being read. -/
theorem argumentsFrom_append {q : Quotation} {depth : Int} {cs : List Char}
    (h : CommasInside q depth cs) (current rest : List Char) :
    argumentsFrom q depth current (cs ++ rest) =
      argumentsFrom (q.after cs) (depth + bracketDepth q cs) (cs.reverse ++ current) rest := by
  induction cs generalizing q depth current with
  | nil =>
    rw [bracketDepth_nil, Int.add_zero]
    rfl
  | cons c more ih =>
    obtain ⟨hhere, hthere⟩ := commasInside_cons h
    rw [List.cons_append, argumentsFrom_cons hhere, ih hthere, bracketDepth_cons, ← Int.add_assoc,
      List.reverse_cons, List.append_assoc]
    rfl

/-- A reader that has met only white space so far reads an argument and comes back to where it
started. -/
theorem IsArgument.exists_argumentsFrom_eq {cs front : List Char} (h : IsArgument cs)
    (hfront : ∀ c ∈ front, isBlank c = true) (rest : List Char) :
    ∃ current : List Char, trim current.reverse = cs ∧
      argumentsFrom .outside 0 front (cs ++ rest) = argumentsFrom .outside 0 current rest := by
  refine ⟨cs.reverse ++ front, ?_, ?_⟩
  · have hblank : ∀ c ∈ front.reverse, isBlank c = true := by simpa using hfront
    rw [List.reverse_append, List.reverse_reverse, trim_append_of_blank hblank, h.trimmed]
  · rw [argumentsFrom_append h.commas, h.closed, h.balanced, Int.add_zero]

/-- Arguments that are joined by a comma and a space are the arguments; `front` is the white space
read since the last cut. -/
theorem argumentsFrom_join {args : List (List Char)} (h : ∀ arg ∈ args, IsArgument arg)
    {front : List Char} (hfront : ∀ c ∈ front, isBlank c = true) :
    argumentsFrom .outside 0 front (join [',', ' '] args) = args := by
  induction args generalizing front with
  | nil =>
    have hblank : ∀ c ∈ front.reverse, isBlank c = true := by simpa using hfront
    have htrim : trim front.reverse = [] := by
      have htrim := trim_append_of_blank hblank []
      rwa [List.append_nil] at htrim
    simp [argumentsFrom, htrim]
  | cons arg rest ih =>
    have harg := h arg List.mem_cons_self
    cases rest with
    | nil =>
      obtain ⟨current, htrim, hread⟩ := harg.exists_argumentsFrom_eq hfront []
      rw [join_singleton, ← List.append_nil arg, hread, argumentsFrom, htrim, List.append_nil]
      simp [harg.ne_nil]
    | cons next others =>
      obtain ⟨current, htrim, hread⟩ :=
        harg.exists_argumentsFrom_eq hfront ([',', ' '] ++ join [',', ' '] (next :: others))
      -- the list is cut at the comma, and the space behind it is in front of the next argument
      have hcut (more : List Char) : argumentsFrom .outside 0 current (',' :: ' ' :: more) =
          trim current.reverse :: argumentsFrom .outside 0 [' '] more := rfl
      have hmore := ih (fun a ha ↦ h a (List.mem_cons_of_mem _ ha))
        (show ∀ c ∈ [' '], isBlank c = true by simp [isBlank_space])
      rw [join_cons_cons, List.append_assoc, hread, List.cons_append, List.cons_append,
        List.nil_append, hcut, htrim, hmore]

/-- Splitting an argument list undoes joining the arguments. -/
theorem splitArguments_joined (args : List String) (h : ∀ arg ∈ args, IsArgument arg.toList) :
    splitArguments (String.intercalate ", " args) = args := by
  have hchars :
      (String.intercalate ", " args).toList = join [',', ' '] (args.map String.toList) := by
    simp [join]
  have hargs : ∀ arg ∈ args.map String.toList, IsArgument arg := by
    intro arg hmem
    obtain ⟨s, hs, rfl⟩ := List.mem_map.mp hmem
    exact h s hs
  rw [splitArguments, splitArgumentChars, hchars, argumentsFrom_join hargs (by simp), List.map_map]
  exact List.map_id'' (fun _ ↦ String.ofList_toList) args

/-- Literals with escaped quotes, commas and single brackets, an argument list inside an argument, a
generic type, and an argument that ends in an escaped backslash. -/
theorem splitArguments_joined_literals :
    let args := ["\"a, \\\" ) b\"", "f(1, g(\x27>\x27), \"<(\")", "new Pair<K, V>()",
      "\x27\\\x27\x27", "\x7b\"[\", x\x7d[0] + \"\\\\\""]
    (∀ arg ∈ args, IsArgument arg.toList) ∧
      splitArguments (String.intercalate ", " args) = args := by
  intro args
  have h : ∀ arg ∈ args, IsArgument arg.toList := by decide +kernel
  exact ⟨h, splitArguments_joined args h⟩

end SuiteMigration.Java
