import Mathlib.Order.Bounds.Basic
import SuiteMigration.Proofs.Java.Nesting
import SuiteMigration.Proofs.Java.Statement

/-!
The balance of brackets. A search for a closing bracket ends at the first byte up to which as many
brackets are closed as are opened, counted over the bytes of the code. It reads nothing behind that
byte, and before it more brackets are open than closed, so that there is always one to close.
-/

set_option autoImplicit false
set_option relaxedAutoImplicit false

namespace SuiteMigration.Chars

/-! ### Characters of one byte -/

/-- The byte of a character is part of no other character. -/
theorem eq_of_mem_utf8EncodeChar {c d : Char} {byte : UInt8}
    (hbyte : String.utf8EncodeChar c = [byte]) (h : byte ∈ String.utf8EncodeChar d) : d = c := by
  have hfirst : byte.IsUTF8FirstByte := by
    have hzero : 0 < (String.utf8EncodeChar c).length := by simp [hbyte]
    have hbegin : (String.utf8EncodeChar c)[0].IsUTF8FirstByte :=
      UInt8.isUTF8FirstByte_getElem_utf8EncodeChar.mpr rfl
    simpa [hbyte] using hbegin
  obtain ⟨i, hi, hget⟩ := List.mem_iff_getElem.mp h
  rw [← hget] at hfirst
  obtain rfl := UInt8.isUTF8FirstByte_getElem_utf8EncodeChar.mp hfirst
  -- a text that starts with the byte is read as one that starts with its character
  obtain ⟨first, more, hmore⟩ := List.exists_cons_of_ne_nil (String.utf8EncodeChar_ne_nil (c := d))
  have hbytes : String.utf8EncodeChar d = String.utf8EncodeChar c ++ more := by
    obtain rfl : first = byte := by simpa [hmore] using hget
    rw [hbyte, hmore, List.singleton_append]
  have hdecode := ByteArray.utf8DecodeChar?_utf8EncodeChar_append (c := d) (b := ByteArray.empty)
  rw [hbytes, List.toByteArray_append, ByteArray.append_assoc,
    ByteArray.utf8DecodeChar?_utf8EncodeChar_append] at hdecode
  exact (Option.some.inj hdecode).symm

/-! ### Positions -/

theorem dropBytes_byteSize_append (front rest : List Char) :
    dropBytes (byteSize front) (front ++ rest) = ([], rest) := by
  induction front with
  | nil => cases rest <;> rfl
  | cons c others ih =>
    obtain ⟨n, hn⟩ := Nat.exists_eq_succ_of_ne_zero c.utf8Size_pos.ne'
    have hoffset : byteSize (c :: others) = n + byteSize others + 1 := by
      rw [byteSize, hn]
      omega
    have hrest : n + byteSize others + 1 - c.utf8Size = byteSize others := by omega
    rw [hoffset, List.cons_append, dropBytes, if_pos (by omega), hrest, ih]

theorem exists_front_of_dropBytes {offset : Nat} {cs rest : List Char} {c : Char}
    (h : dropBytes offset cs = ([], c :: rest)) :
    ∃ front, cs = front ++ c :: rest ∧ byteSize front = offset := by
  induction cs generalizing offset with
  | nil => simp [dropBytes] at h
  | cons d others ih =>
    cases offset with
    | zero =>
      rw [dropBytes] at h
      · exact ⟨[], (Prod.mk.inj h).2, rfl⟩
      · exact List.cons_ne_nil _ _
    | succ n =>
      rw [dropBytes] at h
      split at h
      next hsize =>
        obtain ⟨front, rfl, hfront⟩ := ih h
        refine ⟨d :: front, rfl, ?_⟩
        rw [byteSize, hfront]
        omega
      next hsize =>
        -- the position cuts a character, of which some bytes are left
        have hlength := congrArg List.length (Prod.mk.inj h).1
        rw [List.length_drop, String.length_utf8EncodeChar, List.length_nil] at hlength
        omega

theorem length_flatMap_utf8EncodeChar (cs : List Char) :
    (cs.flatMap String.utf8EncodeChar).length = byteSize cs := by
  induction cs with
  | nil => rfl
  | cons c rest ih =>
    rw [List.flatMap_cons, List.length_append, String.length_utf8EncodeChar, ih, byteSize]

/-- A byte that is a character stands where that character does. -/
theorem getElem?_flatMap_utf8EncodeChar {c : Char} {byte : UInt8}
    (hbyte : String.utf8EncodeChar c = [byte]) {cs : List Char} {i : Nat} :
    (cs.flatMap String.utf8EncodeChar)[i]? = some byte ↔
      ∃ front rest, cs = front ++ c :: rest ∧ byteSize front = i := by
  constructor
  · intro h
    induction cs generalizing i with
    | nil => cases h
    | cons d others ih =>
      rw [List.flatMap_cons] at h
      by_cases hi : i < (String.utf8EncodeChar d).length
      · rw [List.getElem?_append_left hi] at h
        obtain rfl := eq_of_mem_utf8EncodeChar hbyte (List.mem_of_getElem? h)
        rw [hbyte, List.length_singleton] at hi
        exact ⟨[], others, rfl, (Nat.lt_one_iff.mp hi).symm⟩
      · rw [not_lt] at hi
        rw [List.getElem?_append_right hi] at h
        obtain ⟨front, rest, rfl, hfront⟩ := ih h
        refine ⟨d :: front, rest, rfl, ?_⟩
        rw [byteSize, hfront, String.length_utf8EncodeChar]
        rw [String.length_utf8EncodeChar] at hi
        omega
  · rintro ⟨front, rest, rfl, rfl⟩
    rw [List.flatMap_append, ← length_flatMap_utf8EncodeChar, List.getElem?_append_right le_rfl,
      Nat.sub_self, List.flatMap_cons, hbyte]
    rfl

theorem data_toUTF8 (text : String) :
    text.toUTF8.data = (text.toList.flatMap String.utf8EncodeChar).toArray := by
  rw [String.toUTF8_eq_toByteArray, ← String.utf8Encode_toList, List.utf8Encode,
    List.data_toByteArray]

theorem size_utf8Encode (cs : List Char) : cs.utf8Encode.size = byteSize cs := by
  rw [List.utf8Encode, ← length_flatMap_utf8EncodeChar, ByteArray.size, List.data_toByteArray,
    List.size_toArray]

/-- The bytes between two positions are those of the characters between them. -/
theorem extract_toUTF8 {text : String} {front inside rest : List Char}
    (h : text.toList = front ++ (inside ++ rest)) :
    text.toUTF8.extract (byteSize front) (byteSize front + byteSize inside) =
      (String.ofList inside).toUTF8 := by
  rw [String.toUTF8_eq_toByteArray, String.toUTF8_eq_toByteArray, ← String.utf8Encode_toList, h,
    List.utf8Encode_append, List.utf8Encode_append, String.toByteArray_ofList]
  conv_lhs => rw [← Nat.add_zero (byteSize front), Nat.add_assoc, Nat.zero_add]
  rw [ByteArray.extract_append_size_add' (size_utf8Encode front).symm,
    ByteArray.extract_append_eq_left (size_utf8Encode inside).symm]

end SuiteMigration.Chars

namespace SuiteMigration.Java

open SuiteMigration.Text

/-! ### Brackets among marks -/

/-- How many marks are a character of the code. -/
def countCode (c : Char) (ms : List Mark) : Nat :=
  ms.countP (·.isCode c)

theorem countCode_cons_of_isCode {c : Char} {mark : Mark} (h : mark.isCode c = true)
    (ms : List Mark) : countCode c (mark :: ms) = countCode c ms + 1 :=
  List.countP_cons_of_pos h

theorem countCode_cons_of_not {c : Char} {mark : Mark} (h : mark.isCode c = false)
    (ms : List Mark) : countCode c (mark :: ms) = countCode c ms :=
  List.countP_cons_of_neg (Bool.not_eq_true _ ▸ h)

theorem countCode_append (c : Char) (ms ns : List Mark) :
    countCode c (ms ++ ns) = countCode c ms + countCode c ns :=
  List.countP_append

section Search

variable {opening closing : Char}

/-- The marks that a search for a closing bracket passes: those before the bracket, or all of them
if there is none. -/
def passed (opening closing : Char) (depth : Nat) (ms : List Mark) : List Mark :=
  ((closeMarks? opening closing depth ms).map Prod.fst).getD ms

theorem passed_cons_of_map {depth next : Nat} {mark : Mark} {rest : List Mark}
    (h : closeMarks? opening closing depth (mark :: rest) =
      (closeMarks? opening closing next rest).map fun (inside, after) ↦ (mark :: inside, after)) :
    passed opening closing depth (mark :: rest) = mark :: passed opening closing next rest := by
  rw [passed, passed, h]
  cases closeMarks? opening closing next rest <;> rfl

theorem isCode_closing_of_opening (hne : opening ≠ closing) {mark : Mark}
    (h : mark.isCode opening = true) : mark.isCode closing = false := by
  rw [eq_of_isCode h]
  exact isCode_of_ne hne

/-- Among the marks that a search has passed, no more brackets are closed than are open. -/
theorem countCode_closing_le (hne : opening ≠ closing) {depth : Nat} {ms front : List Mark}
    (hfront : front <+: passed opening closing depth ms) :
    countCode closing front ≤ countCode opening front + depth := by
  -- a mark that the search passes changes the depth by what it changes in the counts
  have hstep {depth next : Nat} {mark : Mark} {rest front : List Mark}
      (hmap : closeMarks? opening closing depth (mark :: rest) =
        (closeMarks? opening closing next rest).map fun (inside, after) ↦ (mark :: inside, after))
      (hcount : ∀ others, countCode closing others ≤ countCode opening others + next →
        countCode closing (mark :: others) ≤ countCode opening (mark :: others) + depth)
      (ih : ∀ others, others <+: passed opening closing next rest →
        countCode closing others ≤ countCode opening others + next)
      (hfront : front <+: passed opening closing depth (mark :: rest)) :
      countCode closing front ≤ countCode opening front + depth := by
    rw [passed_cons_of_map hmap, List.prefix_cons_iff] at hfront
    obtain rfl | ⟨others, rfl, hothers⟩ := hfront
    · exact Nat.zero_le _
    · exact hcount others (ih others hothers)
  fun_induction closeMarks? opening closing depth ms generalizing front with
  | case1 depth =>
    rw [List.prefix_nil.mp hfront]
    exact Nat.zero_le _
  | case2 depth mark rest hopening ih =>
    refine hstep (closeMarks?_cons_opening depth rest hopening) (fun others h ↦ ?_) (fun _ ↦ ih)
      hfront
    rw [countCode_cons_of_isCode hopening,
      countCode_cons_of_not (isCode_closing_of_opening hne hopening)]
    omega
  | case3 mark rest hopening hclosing =>
    rw [passed, closeMarks?_zero_cons_closing rest (Bool.eq_false_iff.mpr hopening) hclosing]
      at hfront
    rw [List.prefix_nil.mp hfront]
    exact Nat.zero_le _
  | case4 mark rest hopening hclosing inner ih =>
    have hopening := Bool.eq_false_iff.mpr hopening
    refine hstep (closeMarks?_cons_closing inner rest hopening hclosing) (fun others h ↦ ?_)
      (fun _ ↦ ih) hfront
    rw [countCode_cons_of_isCode hclosing, countCode_cons_of_not hopening]
    omega
  | case5 depth mark rest hopening hclosing ih =>
    have hopening := Bool.eq_false_iff.mpr hopening
    have hclosing := Bool.eq_false_iff.mpr hclosing
    have hother : ∀ m ∈ [mark], m.isCode opening = false ∧ m.isCode closing = false :=
      List.forall_mem_singleton.mpr ⟨hopening, hclosing⟩
    refine hstep (closeMarks?_append_other depth rest hother) (fun others h ↦ ?_) (fun _ ↦ ih)
      hfront
    rwa [countCode_cons_of_not hopening, countCode_cons_of_not hclosing]

/-- Before the bracket that is found, all inner brackets are closed and the outer ones too. -/
theorem countCode_closing_eq (hne : opening ≠ closing) {depth : Nat} {ms inside after : List Mark}
    (h : closeMarks? opening closing depth ms = some (inside, after)) :
    countCode closing inside = countCode opening inside + depth := by
  fun_induction closeMarks? opening closing depth ms generalizing inside with
  | case1 => cases h
  | case2 depth mark rest hopening ih =>
    obtain ⟨⟨front, back⟩, hrest, hpair⟩ := Option.map_eq_some_iff.mp h
    obtain ⟨rfl, rfl⟩ := Prod.mk.inj hpair
    rw [countCode_cons_of_isCode hopening,
      countCode_cons_of_not (isCode_closing_of_opening hne hopening), ih hrest]
    omega
  | case3 mark rest hopening hclosing =>
    obtain ⟨rfl, rfl⟩ := Prod.mk.inj (Option.some.inj h)
    rfl
  | case4 mark rest hopening hclosing inner ih =>
    obtain ⟨⟨front, back⟩, hrest, hpair⟩ := Option.map_eq_some_iff.mp h
    obtain ⟨rfl, rfl⟩ := Prod.mk.inj hpair
    rw [countCode_cons_of_isCode hclosing, countCode_cons_of_not (Bool.eq_false_iff.mpr hopening),
      ih hrest]
    omega
  | case5 depth mark rest hopening hclosing ih =>
    obtain ⟨⟨front, back⟩, hrest, hpair⟩ := Option.map_eq_some_iff.mp h
    obtain ⟨rfl, rfl⟩ := Prod.mk.inj hpair
    rw [countCode_cons_of_not (Bool.eq_false_iff.mpr hopening),
      countCode_cons_of_not (Bool.eq_false_iff.mpr hclosing), ih hrest]

end Search

/-! ### Code bytes before a position -/

/-- How many of the code bytes from `start` on that stand before `stop` are equal to `byte`. -/
def codeCount (text : String) (start stop : Nat) (byte : UInt8) : Nat :=
  (codeBytes text start).countP fun f ↦ decide (f.1 < stop) && f.2 == byte

/-- The marks that start before a position, when the first mark stands at byte `offset`. -/
def marksBefore (stop : Nat) : Nat → List Mark → List Mark
  | _, [] => []
  | offset, mark :: rest =>
      if offset < stop then mark :: marksBefore stop (offset + mark.char.utf8Size) rest else []

theorem marksBefore_prefix (stop offset : Nat) (ms : List Mark) :
    marksBefore stop offset ms <+: ms := by
  induction ms generalizing offset with
  | nil => exact List.prefix_rfl
  | cons mark rest ih =>
    rw [marksBefore]
    split
    · exact List.cons_prefix_cons.mpr ⟨rfl, ih _⟩
    · exact List.nil_prefix

theorem marksBefore_of_le {stop offset : Nat} (h : stop ≤ offset) (ms : List Mark) :
    marksBefore stop offset ms = [] := by
  cases ms with
  | nil => rfl
  | cons mark rest => exact if_neg (Nat.not_lt.mpr h)

theorem marksBefore_append {stop offset : Nat} {ms : List Mark}
    (h : stop ≤ offset + Chars.byteSize (textOf ms)) (ns : List Mark) :
    marksBefore stop offset (ms ++ ns) = marksBefore stop offset ms := by
  induction ms generalizing offset with
  | nil => exact marksBefore_of_le h ns
  | cons mark rest ih =>
    rw [textOf_cons, Chars.byteSize, ← Nat.add_assoc] at h
    rw [List.cons_append, marksBefore, marksBefore, ih h]

theorem marksBefore_eq_self {stop offset : Nat} {ms : List Mark}
    (h : offset + Chars.byteSize (textOf ms) ≤ stop) : marksBefore stop offset ms = ms := by
  induction ms generalizing offset with
  | nil => rfl
  | cons mark rest ih =>
    rw [textOf_cons, Chars.byteSize, ← Nat.add_assoc] at h
    have hsize := mark.char.utf8Size_pos
    rw [marksBefore, if_pos (by omega), ih h]

theorem le_of_mem_codeBytesFrom {offset : Nat} {ms : List Mark} {f : Nat × UInt8}
    (h : f ∈ codeBytesFrom offset ms) : offset ≤ f.1 := by
  induction ms generalizing offset with
  | nil => cases h
  | cons mark rest ih =>
    have hlater (hf : f ∈ codeBytesFrom (offset + mark.char.utf8Size) rest) : offset ≤ f.1 :=
      (Nat.le_add_right _ _).trans (ih hf)
    rw [codeBytesFrom] at h
    split at h
    next =>
      obtain hown | hf := List.mem_append.mp h
      · obtain ⟨i, -, rfl⟩ := List.mem_mapIdx.mp hown
        exact Nat.le_add_right _ _
      · exact hlater hf
    next => exact hlater h

/-- The bytes of a character of the code are counted with the marks that start before a position. -/
theorem countP_codeBytesFrom {c : Char} {byte : UInt8} (hbyte : String.utf8EncodeChar c = [byte])
    (stop offset : Nat) (ms : List Mark) :
    (codeBytesFrom offset ms).countP (fun f ↦ decide (f.1 < stop) && f.2 == byte) =
      countCode c (marksBefore stop offset ms) := by
  induction ms generalizing offset with
  | nil => rfl
  | cons mark rest ih =>
    by_cases hstop : offset < stop
    · rw [marksBefore, if_pos hstop, codeBytesFrom]
      split
      next hkind =>
        rw [List.countP_append, ih]
        by_cases hchar : mark.char = c
        · have hcode : mark.isCode c = true := by simp [Mark.isCode, hkind, hchar]
          rw [countCode_cons_of_isCode hcode, hchar, hbyte, Nat.add_comm]
          simp [hstop]
        · -- the bytes of another character are others
          have hcode : mark.isCode c = false := by simp [Mark.isCode, hchar]
          rw [countCode_cons_of_not hcode, Nat.add_eq_right, List.countP_eq_zero]
          intro f hf hcount
          obtain ⟨i, hi, rfl⟩ := List.mem_mapIdx.mp hf
          rw [Bool.and_eq_true, beq_iff_eq] at hcount
          exact hchar (Chars.eq_of_mem_utf8EncodeChar hbyte (hcount.2 ▸ List.getElem_mem hi))
      next hkind =>
        have hcode : mark.isCode c = false := by simp [Mark.isCode, hkind]
        rw [countCode_cons_of_not hcode, ih]
    · rw [not_lt] at hstop
      rw [marksBefore_of_le hstop]
      refine List.countP_eq_zero.mpr fun f hf hcount ↦ ?_
      rw [Bool.and_eq_true, decide_eq_true_eq] at hcount
      exact absurd (le_of_mem_codeBytesFrom hf) (by omega)

/-! ### Regions of a text -/

theorem marks_cons_of_isPlain {c : Char} (h : isPlain c = true) (cs : List Char) :
    marks (c :: cs) = ⟨c, .code⟩ :: marks cs := by
  have hplain : [c].all isPlain = true := by simpa using h
  exact (lexes_plain hplain).marks_eq cs

theorem codeBytes_of_front {text : String} {front more : List Char} {opening : Char}
    (hopening : isPlain opening = true) (htext : text.toList = front ++ opening :: more) :
    codeBytes text (Chars.byteSize front) =
      codeBytesFrom (Chars.byteSize front) (⟨opening, .code⟩ :: marks more) := by
  rw [codeBytes, htext, Chars.dropBytes_byteSize_append, ← marks_cons_of_isPlain hopening]
  rfl

/-- Two brackets of one byte each, which are nothing but code to the reader. -/
structure IsPair (opening closing : Char) : Prop where
  opening_plain : isPlain opening = true
  closing_plain : isPlain closing = true
  closing_ne_star : closing ≠ '*'
  ne : opening ≠ closing
  opening_byte : String.utf8EncodeChar opening = [opening.toUInt8]
  closing_byte : String.utf8EncodeChar closing = [closing.toUInt8]

theorem isPair_of_closerOf? {opening closing : Char} (h : closerOf? opening = some closing) :
    IsPair opening closing := by
  obtain ⟨rfl, rfl⟩ | ⟨rfl, rfl⟩ := closerOf?_eq_some h <;> constructor <;> decide

theorem IsPair.opening_size {opening closing : Char} (h : IsPair opening closing) :
    opening.utf8Size = 1 := by
  rw [← String.length_utf8EncodeChar, h.opening_byte, List.length_singleton]

theorem IsPair.closing_size {opening closing : Char} (h : IsPair opening closing) :
    closing.utf8Size = 1 := by
  rw [← String.length_utf8EncodeChar, h.closing_byte, List.length_singleton]

section Region

variable {opening closing : Char} (hpair : IsPair opening closing) {text : String}
  {front more : List Char} (htext : text.toList = front ++ opening :: more)

include hpair htext

theorem scanDelimited?_of_front : scanDelimited? text (Chars.byteSize front) opening closing =
    (enclosed? opening closing (opening :: more)).map fun cut ↦
      ⟨String.ofList cut.before,
        Chars.byteSize front + 1 + Chars.byteSize cut.before⟩ := by
  rw [scanDelimited?, htext, Chars.dropBytes_byteSize_append, hpair.opening_size]

theorem scanDelimited?_eq_some_iff {region : Delimited} :
    scanDelimited? text (Chars.byteSize front) opening closing = some region ↔
      ∃ inside rest, more = inside ++ closing :: rest ∧ Enclosed opening closing inside ∧
        region = ⟨String.ofList inside, Chars.byteSize front + 1 + Chars.byteSize inside⟩ := by
  rw [scanDelimited?_of_front hpair htext, Option.map_eq_some_iff]
  constructor
  · rintro ⟨⟨inside, rest⟩, hcut, rfl⟩
    obtain ⟨hmore, henclosed⟩ := (enclosed?_cons_eq_some_iff hpair.opening_plain
      hpair.closing_plain hpair.closing_ne_star hpair.ne).mp hcut
    exact ⟨inside, rest, hmore, henclosed, rfl⟩
  · rintro ⟨inside, rest, hmore, henclosed, rfl⟩
    exact ⟨⟨inside, rest⟩, (enclosed?_cons_eq_some_iff hpair.opening_plain
      hpair.closing_plain hpair.closing_ne_star hpair.ne).mpr ⟨hmore, henclosed⟩, rfl⟩

theorem codeCount_of_front {c : Char} {byte : UInt8} (hbyte : String.utf8EncodeChar c = [byte])
    {stop : Nat} (hstop : Chars.byteSize front < stop) :
    codeCount text (Chars.byteSize front) stop byte = countCode c
      (⟨opening, .code⟩ :: marksBefore stop (Chars.byteSize front + 1) (marks more)) := by
  rw [codeCount, codeBytes_of_front hpair.opening_plain htext, countP_codeBytesFrom hbyte,
    marksBefore, if_pos hstop, hpair.opening_size]

/-- While the search for the closing bracket goes on, brackets are open. -/
theorem codeCount_closing_lt {stop : Nat} (hstop : Chars.byteSize front < stop)
    (hpassed : marksBefore stop (Chars.byteSize front + 1) (marks more) <+:
      passed opening closing 0 (marks more)) :
    codeCount text (Chars.byteSize front) stop closing.toUInt8 <
      codeCount text (Chars.byteSize front) stop opening.toUInt8 := by
  rw [codeCount_of_front hpair htext hpair.closing_byte hstop,
    codeCount_of_front hpair htext hpair.opening_byte hstop,
    countCode_cons_of_isCode (isCode_self opening),
    countCode_cons_of_not (isCode_of_ne hpair.ne)]
  exact Nat.lt_succ_of_le (countCode_closing_le hpair.ne hpassed)

theorem codeCount_closing_lt_of_none (hclose : closeMarks? opening closing 0 (marks more) = none)
    {stop : Nat} (hstop : Chars.byteSize front < stop) :
    codeCount text (Chars.byteSize front) stop closing.toUInt8 <
      codeCount text (Chars.byteSize front) stop opening.toUInt8 := by
  refine codeCount_closing_lt hpair htext hstop ?_
  rw [passed, hclose]
  exact marksBefore_prefix _ _ _

section Found

variable {inside after : List Mark}
  (hclose : closeMarks? opening closing 0 (marks more) = some (inside, after))

include hclose

theorem codeCount_closing_lt_of_some {stop : Nat} (hstop : Chars.byteSize front < stop)
    (hle : stop ≤ Chars.byteSize front + 1 + Chars.byteSize (textOf inside)) :
    codeCount text (Chars.byteSize front) stop closing.toUInt8 <
      codeCount text (Chars.byteSize front) stop opening.toUInt8 := by
  refine codeCount_closing_lt hpair htext hstop ?_
  rw [passed, hclose, closeMarks?_eq_some hclose, marksBefore_append hle]
  exact marksBefore_prefix _ _ _

/-- Up to and with the bracket that is found, as many brackets are closed as are opened. -/
theorem codeCount_eq_of_some :
    codeCount text (Chars.byteSize front)
        (Chars.byteSize front + 1 + Chars.byteSize (textOf inside) + 1) opening.toUInt8 =
      codeCount text (Chars.byteSize front)
        (Chars.byteSize front + 1 + Chars.byteSize (textOf inside) + 1) closing.toUInt8 := by
  have hsize : Chars.byteSize (textOf (inside ++ [⟨closing, .code⟩])) =
      Chars.byteSize (textOf inside) + 1 := by
    rw [textOf_append, byteSize_append, textOf_cons, Chars.byteSize, hpair.closing_size]
    rfl
  have hmarks : marksBefore (Chars.byteSize front + 1 + Chars.byteSize (textOf inside) + 1)
      (Chars.byteSize front + 1) (marks more) = inside ++ [⟨closing, .code⟩] := by
    rw [closeMarks?_eq_some hclose, List.append_cons, marksBefore_append (by omega),
      marksBefore_eq_self (by omega)]
  have hopening : countCode opening (inside ++ [⟨closing, .code⟩]) = countCode opening inside := by
    rw [countCode_append, countCode_cons_of_not (isCode_of_ne hpair.ne.symm)]
    rfl
  have hclosing : countCode closing (inside ++ [⟨closing, .code⟩]) =
      countCode closing inside + 1 := by
    rw [countCode_append, countCode_cons_of_isCode (isCode_self closing)]
    rfl
  rw [codeCount_of_front hpair htext hpair.opening_byte (by omega),
    codeCount_of_front hpair htext hpair.closing_byte (by omega), hmarks,
    countCode_cons_of_isCode (isCode_self opening), countCode_cons_of_not (isCode_of_ne hpair.ne),
    hopening, hclosing, countCode_closing_eq hpair.ne hclose]

/-- The bracket that is found is the first place of balance. -/
theorem isLeast_of_some :
    IsLeast {stop | Chars.byteSize front ≤ stop ∧
        codeCount text (Chars.byteSize front) (stop + 1) opening.toUInt8 =
          codeCount text (Chars.byteSize front) (stop + 1) closing.toUInt8}
      (Chars.byteSize front + 1 + Chars.byteSize (textOf inside)) := by
  refine ⟨⟨by omega, codeCount_eq_of_some hpair htext hclose⟩, fun stop hstop ↦ ?_⟩
  by_contra hlt
  have hopen := codeCount_closing_lt_of_some hpair htext hclose (Nat.lt_succ_of_le hstop.1)
    (by omega)
  exact hopen.ne' hstop.2

end Found

/-- A search finds the first place of balance, and fails if there is none. -/
theorem scanDelimited?_iff_isLeast {body : String} {close : Nat} :
    scanDelimited? text (Chars.byteSize front) opening closing = some ⟨body, close⟩ ↔
      IsLeast {stop | Chars.byteSize front ≤ stop ∧
        codeCount text (Chars.byteSize front) (stop + 1) opening.toUInt8 =
          codeCount text (Chars.byteSize front) (stop + 1) closing.toUInt8} close ∧
      body.toUTF8 = text.toUTF8.extract (Chars.byteSize front + 1) close := by
  rw [scanDelimited?_of_front hpair htext, enclosed?_cons hpair.opening_plain, Option.map_map]
  cases hclose : closeMarks? opening closing 0 (marks more) with
  | none =>
    refine iff_of_false (by simp) fun ⟨hleast, _⟩ ↦ ?_
    obtain ⟨hle, heq⟩ := hleast.1
    exact (codeCount_closing_lt_of_none hpair htext hclose (Nat.lt_succ_of_le hle)).ne' heq
  | some found =>
    obtain ⟨inside, after⟩ := found
    have hleast := isLeast_of_some hpair htext hclose
    have hbody : text.toUTF8.extract (Chars.byteSize front + 1)
        (Chars.byteSize front + 1 + Chars.byteSize (textOf inside)) =
          (String.ofList (textOf inside)).toUTF8 := by
      have hsize : Chars.byteSize (front ++ [opening]) = Chars.byteSize front + 1 := by
        rw [byteSize_append, Chars.byteSize, hpair.opening_size]
        rfl
      have hmore : more = textOf inside ++ closing :: textOf after := by
        rw [← textOf_marks more, closeMarks?_eq_some hclose, textOf_append, textOf_cons]
      rw [← hsize]
      exact Chars.extract_toUTF8 (by rw [htext, hmore, List.append_assoc, List.singleton_append])
    rw [Option.map_some, Option.some_inj]
    constructor
    · intro heq
      obtain ⟨rfl, rfl⟩ := Delimited.mk.inj heq
      exact ⟨hleast, hbody.symm⟩
    · rintro ⟨hclosest, hbytes⟩
      obtain rfl := hclosest.unique hleast
      rw [hbody, String.toUTF8_eq_toByteArray, String.toUTF8_eq_toByteArray,
        String.toByteArray_inj] at hbytes
      rw [hbytes]
      rfl

end Region

theorem getElem?_toUTF8_iff {opening closing : Char} (h : IsPair opening closing) {text : String}
    {position : Nat} : text.toUTF8.data[position]? = some opening.toUInt8 ↔
      ∃ front more, text.toList = front ++ opening :: more ∧ Chars.byteSize front = position := by
  rw [Chars.data_toUTF8, List.getElem?_toArray,
    Chars.getElem?_flatMap_utf8EncodeChar h.opening_byte]

/-- A search that finds something starts at an opening bracket. -/
theorem exists_front_of_scanDelimited? {opening closing : Char} {text : String} {position : Nat}
    {region : Delimited} (h : scanDelimited? text position opening closing = some region) :
    ∃ front more, text.toList = front ++ opening :: more ∧ Chars.byteSize front = position := by
  rw [scanDelimited?] at h
  split at h
  next rest hdrop =>
    obtain ⟨cut, hcut, -⟩ := Option.map_eq_some_iff.mp h
    rw [enclosed?] at hcut
    split at hcut
    next => cases hcut
    next mark others hmarks =>
      split at hcut
      next hopening =>
        have hrest : rest = opening :: textOf others := by
          rw [← textOf_marks rest, hmarks, eq_of_isCode hopening, textOf_cons]
        exact Chars.exists_front_of_dropBytes (hrest ▸ hdrop) |>.imp fun front hfront ↦
          ⟨_, hfront⟩
      next => cases hcut
  next => cases h

/-- Bracketed regions. A search for a closing bracket that starts at an opening one ends at the
first byte up to which as many brackets of the code are closed as are opened, and finds the text
between the two. It finds the same region in the text of the region alone and in front of any other
text. As long as it goes on, brackets are open. -/
theorem scanDelimited?_balance {opening closing : Char} (h : closerOf? opening = some closing)
    (text : String) (position : Nat) :
    (∀ body close, scanDelimited? text position opening closing = some ⟨body, close⟩ ↔
      text.toUTF8.data[position]? = some opening.toUInt8 ∧
      IsLeast {stop | position ≤ stop ∧
        codeCount text position (stop + 1) opening.toUInt8 =
          codeCount text position (stop + 1) closing.toUInt8} close ∧
      body.toUTF8 = text.toUTF8.extract (position + 1) close) ∧
    (∀ region, scanDelimited? text position opening closing = some region →
      scanDelimited? (String.singleton opening ++ region.body ++ String.singleton closing) 0
        opening closing = some ⟨region.body, 1 + byteSize region.body⟩ ∧
      ∀ suffix, scanDelimited? (text ++ suffix) position opening closing = some region) ∧
    (text.toUTF8.data[position]? = some opening.toUInt8 → ∀ stop, position < stop →
      (∀ earlier, position ≤ earlier → earlier < stop →
        codeCount text position (earlier + 1) opening.toUInt8 ≠
          codeCount text position (earlier + 1) closing.toUInt8) →
      codeCount text position stop closing.toUInt8 <
        codeCount text position stop opening.toUInt8) := by
  have hpair := isPair_of_closerOf? h
  refine ⟨fun body close ↦ ?_, fun region hregion ↦ ?_, fun hbyte stop hstop hearlier ↦ ?_⟩
  · rw [getElem?_toUTF8_iff hpair]
    constructor
    · intro hscan
      obtain ⟨front, more, htext, rfl⟩ := exists_front_of_scanDelimited? hscan
      exact ⟨⟨front, more, htext, rfl⟩, (scanDelimited?_iff_isLeast hpair htext).mp hscan⟩
    · rintro ⟨⟨front, more, htext, rfl⟩, hleast⟩
      exact (scanDelimited?_iff_isLeast hpair htext).mpr hleast
  · obtain ⟨front, more, htext, rfl⟩ := exists_front_of_scanDelimited? hregion
    obtain ⟨inside, rest, rfl, henclosed, rfl⟩ :=
      (scanDelimited?_eq_some_iff hpair htext).mp hregion
    constructor
    · have halone : (String.singleton opening ++ String.ofList inside ++
          String.singleton closing).toList = [] ++ opening :: (inside ++ [closing]) := by simp
      refine (scanDelimited?_eq_some_iff hpair halone).mpr ⟨inside, [], rfl, henclosed, ?_⟩
      rw [byteSize, String.toList_ofList, Chars.byteSize, Nat.zero_add]
    · intro suffix
      have hlonger : (text ++ suffix).toList =
          front ++ opening :: (inside ++ closing :: (rest ++ suffix.toList)) := by simp [htext]
      exact (scanDelimited?_eq_some_iff hpair hlonger).mpr ⟨inside, _, rfl, henclosed, rfl⟩
  · obtain ⟨front, more, htext, rfl⟩ := (getElem?_toUTF8_iff hpair).mp hbyte
    cases hclose : closeMarks? opening closing 0 (marks more) with
    | none => exact codeCount_closing_lt_of_none hpair htext hclose hstop
    | some found =>
      obtain ⟨inside, after⟩ := found
      refine codeCount_closing_lt_of_some hpair htext hclose hstop ?_
      by_contra hlt
      exact hearlier (Chars.byteSize front + 1 + Chars.byteSize (textOf inside)) (by omega)
        (by omega) (codeCount_eq_of_some hpair htext hclose)

/-- A brace in a literal is not counted: the block ends at byte 4. -/
theorem isLeast_behind_quoted_brace :
    scanDelimited? "\x7b\"\x7d\"\x7d;" 0 '\x7b' '\x7d' = some ⟨"\"\x7d\"", 4⟩ ∧
      IsLeast {stop | 0 ≤ stop ∧
        codeCount "\x7b\"\x7d\"\x7d;" 0 (stop + 1) ('\x7b').toUInt8 =
          codeCount "\x7b\"\x7d\"\x7d;" 0 (stop + 1) ('\x7d').toUInt8} 4 := by
  have hscan : scanDelimited? "\x7b\"\x7d\"\x7d;" 0 '\x7b' '\x7d' = some ⟨"\"\x7d\"", 4⟩ := by
    decide +kernel
  exact ⟨hscan, (((scanDelimited?_balance rfl _ 0).1 _ _).mp hscan).2.1⟩

end SuiteMigration.Java
