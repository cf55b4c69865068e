import Mathlib.Data.List.Chain
import Mathlib.Tactic.IntervalCases
import SuiteMigration.Java.Literal

/-!
Concatenations of literals: string literals and decimal integer literals joined by plus signs. They
are evaluated from the left. Integers are added as 32-bit numbers up to the first text, and from
there on every operand adds its text. So the value is what the operands are as texts, one after the
other, unless the first two are integers: the sum of these does not even start with their digits.
-/

set_option autoImplicit false
set_option relaxedAutoImplicit false

namespace SuiteMigration.Java

open SuiteMigration.Text

/-! ### Literals -/

/-- The escapes of a string literal that stand for one character each. -/
inductive Escape where
  | lineFeed
  | tab
  | carriageReturn
  | null
  | quote
  | apostrophe
  | backslash
  deriving DecidableEq, Repr

def Escape.letter : Escape → Char
  | .lineFeed => 'n'
  | .tab => 't'
  | .carriageReturn => 'r'
  | .null => '0'
  | .quote => '"'
  | .apostrophe => '\x27'
  | .backslash => '\\'

def Escape.value : Escape → Char
  | .lineFeed => '\n'
  | .tab => '\t'
  | .carriageReturn => '\r'
  | .null => '\x00'
  | .quote => '"'
  | .apostrophe => '\x27'
  | .backslash => '\\'

/-- A character inside a string literal, as it is or escaped. -/
inductive LiteralChar where
  | plain (c : Char) (quote : c ≠ '"') (backslash : c ≠ '\\') (feed : c ≠ '\n') (cr : c ≠ '\r')
  | escaped (e : Escape)

def LiteralChar.source : LiteralChar → List Char
  | .plain c .. => [c]
  | .escaped e => ['\\', e.letter]

def LiteralChar.value : LiteralChar → Char
  | .plain c .. => c
  | .escaped e => e.value

/-- Whether one character can follow another: an octal digit behind the escape for zero would belong
to the escape. -/
def LiteralChar.CanFollow (next previous : LiteralChar) : Prop :=
  previous = .escaped .null → ∀ c ∈ next.source.head?, ¬ ('0' ≤ c ∧ c ≤ '7')

structure StringLiteral where
  chars : List LiteralChar
  follow : chars.IsChain fun previous next ↦ next.CanFollow previous

namespace StringLiteral

/-- What stands between the quotes. -/
def inside (l : StringLiteral) : List Char :=
  l.chars.flatMap LiteralChar.source

def source (l : StringLiteral) : List Char :=
  '"' :: (l.inside ++ ['"'])

def value (l : StringLiteral) : List Char :=
  l.chars.map LiteralChar.value

/-- The literal of one character that needs no escape. -/
def ofChar (c : Char) (quote : c ≠ '"' := by decide) (backslash : c ≠ '\\' := by decide)
    (feed : c ≠ '\n' := by decide) (cr : c ≠ '\r' := by decide) : StringLiteral :=
  ⟨[.plain c quote backslash feed cr], .singleton _⟩

end StringLiteral

/-- A decimal literal of a 32-bit integer. Underscores can stand between its digits. -/
structure IntLiteral where
  source : List Char
  value : Nat
  le : value ≤ 2147483647
  digits : source.filter (· != '_') = Nat.toDigits 10 value
  head : source.head? ≠ some '_'
  last : source.getLast? ≠ some '_'

/-- The literal of a digit. -/
def IntLiteral.ofFin (n : Fin 10) : IntLiteral where
  source := [n.val.digitChar]
  value := n
  le := by omega
  digits := by decide +revert
  head := by decide +revert
  last := by decide +revert

/-! ### Values -/

inductive Value where
  | int (n : Int32)
  | text (cs : List Char)

/-- A value as text. -/
def Value.chars : Value → List Char
  | .int n => (toString n).toList
  | .text cs => cs

/-- Integers are added, and with a text the sum is a text. -/
def Value.add : Value → Value → Value
  | .int m, .int n => .int (m + n)
  | v, w => .text (v.chars ++ w.chars)

inductive Operand where
  | text (l : StringLiteral)
  | int (n : IntLiteral)

namespace Operand

def source : Operand → List Char
  | .text l => l.source
  | .int n => n.source

def value : Operand → Value
  | .text l => .text l.value
  | .int n => .int (.ofNat n.value)

/-- The value of an operand as text. -/
def chars (o : Operand) : List Char :=
  o.value.chars

end Operand

/-! ### Concatenations -/

/-- White space between the parts of an expression. -/
structure Spacing where
  chars : List Char
  blank : ∀ c ∈ chars, isBlank c = true

def Spacing.none : Spacing :=
  ⟨[], nofun⟩

@[simp] theorem Spacing.chars_none : Spacing.none.chars = [] := rfl

def Spacing.space : Spacing :=
  ⟨[' '], List.forall_mem_singleton.mpr (by decide)⟩

/-- An operand with the plus sign before it. -/
structure Addend where
  before : Spacing
  after : Spacing
  operand : Operand

def Addend.source (a : Addend) : List Char :=
  a.before.chars ++ '+' :: (a.after.chars ++ a.operand.source)

structure Concatenation where
  before : Spacing
  first : Operand
  addends : List Addend
  after : Spacing

namespace Concatenation

/-- The expression without the white space around it. -/
def inside (e : Concatenation) : List Char :=
  e.first.source ++ e.addends.flatMap Addend.source

def source (e : Concatenation) : String :=
  String.ofList (e.before.chars ++ (e.inside ++ e.after.chars))

def operands (e : Concatenation) : List Operand :=
  e.first :: e.addends.map Addend.operand

def value (e : Concatenation) : Value :=
  (e.addends.map fun a ↦ a.operand.value).foldl Value.add e.first.value

end Concatenation

/-- Whether a concatenation starts with the sum of two integers. -/
def StartsWithSum : List Operand → Prop
  | .int _ :: .int _ :: _ => True
  | _ => False

/-! ### Sources -/

theorem exists_of_isQuoted {cs : List Char} (h : isQuoted cs = true) :
    ∃ body, cs = '"' :: (body ++ ['"']) := by
  unfold isQuoted at h
  split at h
  next rest =>
    obtain ⟨body, rfl⟩ := List.getLast?_eq_some_iff.mp (eq_of_beq h)
    exact ⟨body, rfl⟩
  next => cases h

theorem unescapeChars_cons {c : Char} (h : c ≠ '\\') (rest : List Char) :
    unescapeChars (c :: rest) = c :: unescapeChars rest := by
  rw [unescapeChars]
  exact fun _ _ hc ↦ absurd hc h

theorem unescapeChars_append {cs : List Char} (h : '\\' ∉ cs) (rest : List Char) :
    unescapeChars (cs ++ rest) = cs ++ unescapeChars rest := by
  induction cs with
  | nil => rfl
  | cons c more ih =>
    rw [List.mem_cons, not_or] at h
    rw [List.cons_append, unescapeChars_cons (Ne.symm h.1), ih h.2, List.cons_append]

theorem LiteralChar.unescapeChars_source (c : LiteralChar) (rest : List Char) :
    unescapeChars (c.source ++ rest) = c.value :: unescapeChars rest := by
  cases c with
  | plain c _ hbackslash => exact unescapeChars_cons hbackslash rest
  | escaped e =>
    have hvalue : escapedChar e.letter = e.value := by cases e <;> rfl
    exact congrArg (· :: unescapeChars rest) hvalue

namespace StringLiteral

variable (l : StringLiteral)

theorem unescapeChars_inside (rest : List Char) :
    unescapeChars (l.inside ++ rest) = l.value ++ unescapeChars rest := by
  rw [inside, value]
  generalize l.chars = chars
  induction chars with
  | nil => rfl
  | cons c more ih =>
    rw [List.flatMap_cons, List.append_assoc, c.unescapeChars_source, ih]
    rfl

/-- A quote inside a literal has a backslash before it. -/
theorem getLast?_of_inside_eq {before after : List Char}
    (h : l.inside = before ++ '"' :: after) : before.getLast? = some '\\' := by
  rw [inside] at h
  generalize l.chars = chars at h
  induction chars generalizing before with
  | nil => simp at h
  | cons c more ih =>
    rw [List.flatMap_cons] at h
    cases c with
    | plain c hquote =>
      cases before with
      | nil => exact absurd (List.cons.inj h).1 hquote
      | cons d rest =>
        have hlast := ih (List.cons.inj h).2
        rw [List.getLast?_cons, hlast]
        rfl
    | escaped e =>
      match before with
      | [] => exact absurd (List.cons.inj h).1 (by decide)
      | [d] =>
        obtain ⟨rfl, -⟩ := List.cons.inj h
        rfl
      | _ :: _ :: rest =>
        have hlast := ih (List.cons.inj (List.cons.inj h).2).2
        rw [List.getLast?_cons, List.getLast?_cons, hlast]
        rfl

theorem isQuoted_source : isQuoted l.source = true := by
  rw [source, isQuoted, List.getLast?_concat, beq_self_eq_true]

theorem inner_source : inner l.source = l.inside := by
  rw [source, inner, List.tail_cons, List.dropLast_concat]

end StringLiteral

namespace IntLiteral

variable (n : IntLiteral)

theorem isDigit_of_mem {c : Char} (hc : c ∈ n.source) : c.isDigit = true ∨ c = '_' := by
  by_cases hunderscore : c = '_'
  · exact Or.inr hunderscore
  · have hmem : c ∈ n.source.filter (· != '_') :=
      List.mem_filter.mpr ⟨hc, by simpa using hunderscore⟩
    rw [n.digits] at hmem
    exact Or.inl (Nat.isDigit_of_mem_toDigits (by decide) (by decide) hmem)

theorem exists_cons : ∃ d rest, n.source = d :: rest ∧ d.isDigit = true := by
  cases hsource : n.source with
  | nil =>
    have hdigits := n.digits
    rw [hsource] at hdigits
    exact absurd hdigits.symm Nat.toDigits_ne_nil
  | cons d rest =>
    refine ⟨d, rest, rfl, (n.isDigit_of_mem (hsource ▸ List.mem_cons_self)).resolve_right ?_⟩
    rintro rfl
    exact n.head (by rw [hsource]; rfl)

theorem exists_concat : ∃ front d, n.source = front ++ [d] ∧ d.isDigit = true := by
  obtain ⟨c, rest, hsource, -⟩ := n.exists_cons
  obtain ⟨front, d, hlast⟩ := List.eq_nil_or_concat' n.source |>.resolve_left (by simp [hsource])
  refine ⟨front, d, hlast, (n.isDigit_of_mem (by simp [hlast])).resolve_right ?_⟩
  rintro rfl
  exact n.last (by rw [hlast, List.getLast?_concat])

/-- A literal is not shorter than its digits. -/
theorem length_toDigits_le : (Nat.toDigits 10 n.value).length ≤ n.source.length := by
  rw [← n.digits]
  exact List.length_filter_le _ _

end IntLiteral

/-! ### Numerals -/

theorem Value.chars_int (n : Int32) : (Value.int n).chars = n.toInt.repr.toList := rfl

theorem chars_ofNat_of_le {n : Nat} (h : n ≤ 2147483647) :
    (Value.int (.ofNat n)).chars = Nat.toDigits 10 n := by
  have hn : (n : Int).bmod Int32.size = n := by
    rw [Int.bmod_def]
    simp only [Int32.size]
    omega
  rw [Value.chars_int, Int32.toInt_ofNat', hn, Int.repr_eq_if, if_pos (Int.natCast_nonneg n),
    Int.toNat_natCast, Nat.toList_repr]

theorem toNat_bmod_le (n size : Nat) : ((n : Int).bmod size).toNat ≤ n := by
  have hmod : n % size ≤ n := Nat.mod_le n size
  rw [Int.bmod_def, ← Int.natCast_emod]
  split <;> omega

/-- A sum that goes around is negative or smaller than it should be. -/
theorem chars_ofNat (n : Nat) :
    (∃ rest, (Value.int (.ofNat n)).chars = '-' :: rest) ∨
      ∃ m ≤ n, (Value.int (.ofNat n)).chars = Nat.toDigits 10 m := by
  rw [Value.chars_int, Int32.toInt_ofNat', Int.repr_eq_if]
  split
  next => exact Or.inr ⟨_, toNat_bmod_le n Int32.size, Nat.toList_repr⟩
  next => exact Or.inl ⟨(-(n : Int).bmod Int32.size).toNat.repr.toList, by simp⟩

theorem le_ofDigitChars_append (digits more : List Char) :
    Nat.ofDigitChars 10 digits 0 + Nat.ofDigitChars 10 more 0 ≤
      Nat.ofDigitChars 10 (digits ++ more) 0 := by
  have hvalue : Nat.ofDigitChars 10 more (Nat.ofDigitChars 10 digits 0) = _ :=
    Nat.ofDigitChars_eq_ofDigitChars_zero
  rw [Nat.ofDigitChars_append, hvalue]
  have hscale := Nat.le_mul_of_pos_left (Nat.ofDigitChars 10 digits 0)
    (Nat.pow_pos (by decide : 0 < 10) : 0 < 10 ^ more.length)
  omega

theorem head?_toDigits {n : Nat} (h : 0 < n) : (Nat.toDigits 10 n).head? ≠ some '0' := by
  induction n using Nat.strongRecOn with
  | ind n ih =>
    by_cases hsmall : n < 10
    · rw [Nat.toDigits_of_lt_base hsmall]
      interval_cases n <;> decide
    · rw [Nat.toDigits_of_base_le (by decide) (by omega),
        List.head?_append_of_ne_nil _ Nat.toDigits_ne_nil]
      exact ih (n / 10) (by omega) (by omega)

theorem isDigit_of_mem_toDigits {n : Nat} : ∀ c ∈ Nat.toDigits 10 n, c.isDigit = true :=
  fun _ ↦ Nat.isDigit_of_mem_toDigits (by decide) (by decide)

/-- Digits that no number up to `n` starts with: their value is greater, or they go on after a
zero. -/
structure Exceeds (digits : List Char) (n : Nat) : Prop where
  isDigit : ∀ c ∈ digits, c.isDigit = true
  exceeds : n < Nat.ofDigitChars 10 digits 0 ∨ ∃ d rest, digits = '0' :: d :: rest

namespace Exceeds

variable {digits : List Char} {m n : Nat}

theorem not_prefix_toDigits (h : Exceeds digits n) (hm : m ≤ n) :
    ¬ digits <+: Nat.toDigits 10 m := by
  rintro ⟨more, hmore⟩
  obtain hvalue | ⟨d, rest, rfl⟩ := h.exceeds
  · have hle := le_ofDigitChars_append digits more
    rw [hmore, Nat.ofDigitChars_ten_toDigits] at hle
    omega
  · obtain rfl | hpos := Nat.eq_zero_or_pos m
    · rw [Nat.toDigits_zero] at hmore
      exact absurd hmore (by simp)
    · exact head?_toDigits hpos (by rw [← hmore]; rfl)

theorem exists_cons (h : Exceeds digits n) : ∃ d rest, digits = d :: rest ∧ d.isDigit = true := by
  cases digits with
  | nil =>
    obtain hvalue | ⟨d, rest, hnil⟩ := h.exceeds
    · exact absurd hvalue (Nat.not_lt_zero n)
    · cases hnil
  | cons d rest => exact ⟨d, rest, rfl, h.isDigit d List.mem_cons_self⟩

theorem not_prefix_chars (h : Exceeds digits n) : ¬ digits <+: (Value.int (.ofNat n)).chars := by
  obtain ⟨rest, hminus⟩ | ⟨m, hm, hchars⟩ := chars_ofNat n
  · obtain ⟨d, others, rfl, hd⟩ := h.exists_cons
    rw [hminus, List.cons_prefix_cons]
    rintro ⟨rfl, _⟩
    exact absurd hd (by decide)
  · rw [hchars]
    exact h.not_prefix_toDigits hm

theorem toDigits_append (m n : Nat) : Exceeds (Nat.toDigits 10 m ++ Nat.toDigits 10 n) (m + n) := by
  refine ⟨List.forall_mem_append.mpr ⟨isDigit_of_mem_toDigits, isDigit_of_mem_toDigits⟩, ?_⟩
  obtain rfl | hpos := Nat.eq_zero_or_pos m
  · obtain ⟨d, rest, hdigits⟩ :=
      List.exists_cons_of_ne_nil (Nat.toDigits_ne_nil : Nat.toDigits 10 n ≠ [])
    exact Or.inr ⟨d, rest, by rw [Nat.toDigits_zero, hdigits]; rfl⟩
  · -- the digits of the second number move the first one up by a place at least
    have hplace : 10 ^ 1 ≤ 10 ^ (Nat.toDigits 10 n).length :=
      Nat.pow_le_pow_right (by decide) Nat.length_toDigits_pos
    have hscale := Nat.mul_le_mul_right m hplace
    rw [Nat.ofDigitChars_append, Nat.ofDigitChars_eq_ofDigitChars_zero,
      Nat.ofDigitChars_ten_toDigits, Nat.ofDigitChars_ten_toDigits]
    exact Or.inl (by omega)

theorem append_toDigits (h : Exceeds digits m) (n : Nat) :
    Exceeds (digits ++ Nat.toDigits 10 n) (m + n) := by
  refine ⟨List.forall_mem_append.mpr ⟨h.isDigit, isDigit_of_mem_toDigits⟩, ?_⟩
  obtain hvalue | ⟨d, rest, rfl⟩ := h.exceeds
  · have hle := le_ofDigitChars_append digits (Nat.toDigits 10 n)
    rw [Nat.ofDigitChars_ten_toDigits] at hle
    exact Or.inl (by omega)
  · exact Or.inr ⟨d, rest ++ Nat.toDigits 10 n, rfl⟩

end Exceeds

/-! ### Evaluation -/

theorem Operand.chars_int (n : IntLiteral) : (Operand.int n).chars = Nat.toDigits 10 n.value :=
  chars_ofNat_of_le n.le

theorem Value.text_add (cs : List Char) (v : Value) :
    (Value.text cs).add v = .text (cs ++ v.chars) := by
  cases v <;> rfl

theorem chars_foldl_text (cs : List Char) (os : List Operand) :
    ((os.map Operand.value).foldl Value.add (.text cs)).chars = cs ++ os.flatMap Operand.chars := by
  induction os generalizing cs with
  | nil => exact (List.append_nil cs).symm
  | cons o rest ih =>
    rw [List.map_cons, List.foldl_cons, Value.text_add, ih, List.flatMap_cons, List.append_assoc]
    rfl

/-- Behind a number come a text and only texts after it. -/
theorem chars_foldl_int_text (n : Int32) (l : StringLiteral) (os : List Operand) :
    (((Operand.text l :: os).map Operand.value).foldl Value.add (.int n)).chars =
      (Value.int n).chars ++ (Operand.text l :: os).flatMap Operand.chars := by
  rw [List.map_cons, List.foldl_cons, List.flatMap_cons, ← List.append_assoc]
  exact chars_foldl_text _ os

/-- What further operands make of a sum: the integers up to the first text are added too, and their
digits stay too many. -/
theorem Exceeds.exists_chars_foldl {digits : List Char} {n : Nat} (h : Exceeds digits n)
    (os : List Operand) :
    ∃ front sum rest, (∀ c ∈ front, c.isDigit = true) ∧ ¬ front <+: sum ∧
      digits ++ os.flatMap Operand.chars = front ++ rest ∧
      ((os.map Operand.value).foldl Value.add (.int (.ofNat n))).chars = sum ++ rest := by
  induction os generalizing digits n with
  | nil => exact ⟨digits, _, [], h.isDigit, h.not_prefix_chars, rfl, (List.append_nil _).symm⟩
  | cons o os ih =>
    cases o with
    | text l =>
      exact ⟨digits, _, _, h.isDigit, h.not_prefix_chars, rfl, chars_foldl_int_text _ l os⟩
    | int m =>
      obtain ⟨front, sum, rest, hfront, hsum, hdigits, hvalue⟩ := ih (h.append_toDigits m.value)
      refine ⟨front, sum, rest, hfront, hsum, ?_, ?_⟩
      · rw [← hdigits, List.flatMap_cons, Operand.chars_int, List.append_assoc]
      · rw [← hvalue, Int32.ofNat_add]
        rfl

namespace Concatenation

variable (e : Concatenation)

theorem value_eq_foldl : e.value =
    ((e.addends.map Addend.operand).map Operand.value).foldl Value.add e.first.value := by
  rw [value, List.map_map]
  rfl

/-- The value of a concatenation that does not start with a sum. -/
theorem chars_value (h : ¬ StartsWithSum e.operands) :
    e.value.chars = e.operands.flatMap Operand.chars := by
  rw [value_eq_foldl]
  unfold operands at h ⊢
  generalize e.first = o, e.addends.map Addend.operand = os at h
  cases o with
  | text l => exact chars_foldl_text l.value os
  | int n =>
    cases os with
    | nil => exact (List.append_nil _).symm
    | cons o rest =>
      cases o with
      | text l => exact chars_foldl_int_text _ l rest
      | int m => exact absurd trivial h

/-- The value of a concatenation that starts with a sum: in front of the texts it has a number
that does not start with the digits of the integers. -/
theorem exists_chars_value (h : StartsWithSum e.operands) :
    ∃ front sum rest, (∀ c ∈ front, c.isDigit = true) ∧ ¬ front <+: sum ∧
      e.operands.flatMap Operand.chars = front ++ rest ∧ e.value.chars = sum ++ rest := by
  rw [value_eq_foldl]
  unfold operands at h ⊢
  generalize e.addends.map Addend.operand = os at h
  match e.first, os, h with
  | .int m, .int n :: rest, _ =>
    obtain ⟨front, sum, others, hfront, hsum, hdigits, hvalue⟩ :=
      (Exceeds.toDigits_append m.value n.value).exists_chars_foldl rest
    refine ⟨front, sum, others, hfront, hsum, ?_, ?_⟩
    · rw [← hdigits, List.flatMap_cons, List.flatMap_cons, Operand.chars_int, Operand.chars_int,
        List.append_assoc]
    · rw [← hvalue, Int32.ofNat_add]
      rfl

end Concatenation

/-! ### Concatenations read as one literal -/

theorem length_unescapeChars_concat (cs : List Char) (c : Char) :
    (unescapeChars (cs ++ [c])).length ≤ (unescapeChars cs).length + 1 := by
  fun_induction unescapeChars cs with
  | case1 => by_cases hc : c = '\\' <;> simp [unescapeChars]
  | case2 d rest ih => simpa [unescapeChars] using ih
  | case3 d rest hescape ih =>
    by_cases hd : d = '\\'
    · obtain rfl : rest = [] := by
        cases rest with
        | nil => rfl
        | cons e others => exact absurd rfl (hescape e others hd)
      subst hd
      simp [unescapeChars]
    · rw [List.cons_append, unescapeChars_cons hd, List.length_cons, List.length_cons]
      omega

theorem length_unescapeChars_operand (o : Operand) (rest : List Char) :
    o.chars.length + (unescapeChars rest).length ≤ (unescapeChars (o.source ++ rest)).length := by
  cases o with
  | text l =>
    have hsource : (Operand.text l).source ++ rest = '"' :: (l.inside ++ '"' :: rest) := by
      simp [Operand.source, StringLiteral.source]
    rw [hsource, unescapeChars_cons (by decide), l.unescapeChars_inside,
      unescapeChars_cons (by decide), List.length_cons, List.length_append, List.length_cons]
    change l.value.length + _ ≤ _
    omega
  | int n =>
    have hbackslash : '\\' ∉ n.source := fun hmem ↦ by
      obtain h | h := n.isDigit_of_mem hmem
      · cases h
      · cases h
    have hdigits := n.length_toDigits_le
    rw [Operand.chars_int, Operand.source, unescapeChars_append hbackslash, List.length_append]
    omega

/-- Each plus sign is a character besides the operands. -/
theorem length_unescapeChars_addends (addends : List Addend) :
    ((addends.map Addend.operand).flatMap Operand.chars).length + addends.length ≤
      (unescapeChars (addends.flatMap Addend.source)).length := by
  induction addends with
  | nil => exact Nat.zero_le _
  | cons a rest ih =>
    have hspacing (s : Spacing) : '\\' ∉ s.chars := fun hmem ↦ by
      have hblank := s.blank _ hmem
      exact absurd hblank (by decide)
    have hoperand := length_unescapeChars_operand a.operand (rest.flatMap Addend.source)
    rw [List.map_cons, List.flatMap_cons, List.length_append, List.length_cons, List.flatMap_cons,
      Addend.source, List.append_assoc, unescapeChars_append (hspacing a.before), List.cons_append,
      unescapeChars_cons (by decide), List.append_assoc, unescapeChars_append (hspacing a.after)]
    simp only [List.length_append, List.length_cons]
    omega

/-- A concatenation that starts and ends with a quote does not have the value that its source would
have as one literal: that is longer. -/
theorem Concatenation.unescapeChars_inner_ne {e : Concatenation} (hmany : e.addends ≠ [])
    (hquoted : isQuoted e.inside = true) : unescapeChars (inner e.inside) ≠ e.value.chars := by
  obtain ⟨body, hbody⟩ := exists_of_isQuoted hquoted
  have hinner : inner e.inside = body := by
    rw [hbody, inner, List.tail_cons, List.dropLast_concat]
  rw [inside] at hbody
  rw [hinner]
  cases hfirst : e.first with
  | int n =>
    obtain ⟨d, rest, hsource, hd⟩ := n.exists_cons
    rw [hfirst, Operand.source, hsource] at hbody
    rw [(List.cons.inj hbody).1] at hd
    cases hd
  | text l =>
    have hvalue : e.value.chars =
        l.value ++ (e.addends.map Addend.operand).flatMap Operand.chars := by
      have hoperands : e.operands = .text l :: e.addends.map Addend.operand := by
        rw [operands, hfirst]
      rw [e.chars_value (by rw [hoperands]; exact id), hoperands]
      rfl
    have hsource : body ++ ['"'] = l.inside ++ '"' :: e.addends.flatMap Addend.source := by
      rw [hfirst, Operand.source, StringLiteral.source, List.cons_append,
        List.append_assoc] at hbody
      exact (List.cons.inj hbody).2.symm
    intro heq
    have hlength := length_unescapeChars_concat body '"'
    rw [hsource, l.unescapeChars_inside, unescapeChars_cons (by decide), List.length_append,
      List.length_cons, heq, hvalue, List.length_append] at hlength
    have haddends := length_unescapeChars_addends e.addends
    have hpos := List.length_pos_iff.mpr hmany
    omega

end SuiteMigration.Java
