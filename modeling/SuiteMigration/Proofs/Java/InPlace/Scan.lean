import SuiteMigration.Proofs.Java.Balance
import SuiteMigration.Proofs.Java.Uncommented

/-!
Scanning in place. A reader that works in place keeps byte positions of one text and takes parts of
the text between them. It can do so only between characters and within the text, so a part is an
optional value here, and `none` is where the reader would break off. The scanner goes over the bytes
of a text and not over its characters, and an escape skips one byte, which may be the first of
several. What it skips or passes in the middle of a character is no ASCII byte, so it marks the
bytes of a character as the character is marked, and all positions that it reports are character
boundaries.
-/

set_option autoImplicit false
set_option relaxedAutoImplicit false

namespace SuiteMigration.Java.InPlace

open SuiteMigration.Chars (byteSize)
open SuiteMigration.Text (isAscii)

/-! ### Parts of a text -/

/-- The text before and after a byte position, if the position is in the text and cuts no
character. -/
def splitAt? : Nat → List Char → Option (List Char × List Char)
  | 0, cs => some ([], cs)
  | _ + 1, [] => none
  | n + 1, c :: rest =>
      if c.utf8Size ≤ n + 1 then
        (splitAt? (n + 1 - c.utf8Size) rest).map fun (before, after) ↦ (c :: before, after)
      else none

/-- A difference, if it is none below zero. -/
def minus? (m n : Nat) : Option Nat :=
  if n ≤ m then some (m - n) else none

/-- The text between two byte positions. -/
def slice? (cs : List Char) (start stop : Nat) : Option (List Char) := do
  let (_, rest) ← splitAt? start cs
  let (inside, _) ← splitAt? (← minus? stop start) rest
  return inside

theorem minus?_eq_some_iff {m n d : Nat} : minus? m n = some d ↔ n + d = m := by
  unfold minus?
  split
  · rw [Option.some_inj]
    omega
  · refine ⟨nofun, fun h ↦ ?_⟩
    omega

theorem byteSize_eq_zero_iff {cs : List Char} : byteSize cs = 0 ↔ cs = [] := by
  cases cs with
  | nil => exact iff_of_true rfl rfl
  | cons c rest =>
    have hpos := c.utf8Size_pos
    refine iff_of_false (fun h ↦ ?_) (List.cons_ne_nil c rest)
    rw [byteSize] at h
    omega

theorem splitAt?_eq_some_iff {n : Nat} {cs before after : List Char} :
    splitAt? n cs = some (before, after) ↔ cs = before ++ after ∧ byteSize before = n := by
  fun_induction splitAt? n cs generalizing before with
  | case1 cs =>
    rw [Option.some_inj, Prod.mk.injEq, byteSize_eq_zero_iff]
    constructor
    · rintro ⟨rfl, rfl⟩
      exact ⟨rfl, rfl⟩
    · rintro ⟨rfl, rfl⟩
      exact ⟨rfl, rfl⟩
  | case2 n =>
    refine ⟨nofun, ?_⟩
    rintro ⟨h, hsize⟩
    rw [(List.append_eq_nil_iff.mp h.symm).1] at hsize
    cases hsize
  | case3 n c rest hle ih =>
    constructor
    · intro h
      obtain ⟨⟨front, back⟩, hrest, hpair⟩ := Option.map_eq_some_iff.mp h
      obtain ⟨rfl, rfl⟩ := Prod.mk.inj hpair
      obtain ⟨rfl, hsize⟩ := ih.mp hrest
      refine ⟨rfl, ?_⟩
      rw [byteSize, hsize]
      omega
    · rintro ⟨h, hsize⟩
      cases before with
      | nil => cases hsize
      | cons d more =>
        obtain ⟨rfl, hrest⟩ := List.cons.inj h
        rw [byteSize] at hsize
        rw [ih.mpr ⟨hrest, by omega⟩]
        rfl
  | case4 n c rest hle =>
    refine ⟨nofun, ?_⟩
    rintro ⟨h, hsize⟩
    cases before with
    | nil => cases hsize
    | cons d more =>
      obtain ⟨rfl, -⟩ := List.cons.inj h
      rw [byteSize] at hsize
      omega

theorem utf8ByteSize_ofList (cs : List Char) : (String.ofList cs).utf8ByteSize = byteSize cs := by
  rw [← Chars.size_utf8Encode]
  rfl

/-- The positions at which a text can be split are its character boundaries. -/
theorem isSome_splitAt?_iff {n : Nat} {text : String} :
    (splitAt? n text.toList).isSome = true ↔ (⟨n⟩ : String.Pos.Raw).IsValid text := by
  rw [Option.isSome_iff_exists, String.Pos.Raw.isValid_iff_exists_append]
  constructor
  · rintro ⟨⟨before, after⟩, h⟩
    obtain ⟨htext, hsize⟩ := splitAt?_eq_some_iff.mp h
    refine ⟨String.ofList before, String.ofList after, ?_, ?_⟩
    · rw [← String.ofList_append, ← htext, String.ofList_toList]
    · rw [String.rawEndPos, utf8ByteSize_ofList, hsize]
  · rintro ⟨front, back, rfl, hpos⟩
    refine ⟨(front.toList, back.toList), splitAt?_eq_some_iff.mpr ⟨String.toList_append, ?_⟩⟩
    rw [← utf8ByteSize_ofList, String.ofList_toList]
    exact (congrArg String.Pos.Raw.byteIdx hpos).symm

theorem slice?_eq_some_iff {cs inside : List Char} {start stop : Nat} :
    slice? cs start stop = some inside ↔ ∃ front rest, cs = front ++ (inside ++ rest) ∧
      byteSize front = start ∧ start + byteSize inside = stop := by
  unfold slice?
  constructor
  · intro h
    simp only [Option.bind_eq_bind, Option.bind_eq_some_iff, Option.pure_def, Option.some_inj,
      Prod.exists] at h
    obtain ⟨front, rest, hrest, length, hlength, _, tail, htail, rfl⟩ := h
    obtain ⟨rfl, hfront⟩ := splitAt?_eq_some_iff.mp hrest
    obtain ⟨rfl, rfl⟩ := splitAt?_eq_some_iff.mp htail
    exact ⟨front, tail, rfl, hfront, minus?_eq_some_iff.mp hlength⟩
  · rintro ⟨front, rest, rfl, hfront, hlength⟩
    rw [splitAt?_eq_some_iff.mpr ⟨rfl, hfront⟩, minus?_eq_some_iff.mpr hlength]
    simp only [Option.bind_eq_bind, Option.bind_some]
    rw [splitAt?_eq_some_iff.mpr ⟨rfl, rfl⟩]
    rfl

/-- A part can be taken between two character boundaries in order, and nowhere else. -/
theorem isSome_slice?_iff {text : String} {start stop : Nat} :
    (slice? text.toList start stop).isSome = true ↔ start ≤ stop ∧
      (⟨start⟩ : String.Pos.Raw).IsValid text ∧ (⟨stop⟩ : String.Pos.Raw).IsValid text := by
  rw [← isSome_splitAt?_iff, ← isSome_splitAt?_iff]
  simp only [Option.isSome_iff_exists, Prod.exists, slice?_eq_some_iff, splitAt?_eq_some_iff]
  constructor
  · rintro ⟨inside, front, rest, htext, rfl, rfl⟩
    refine ⟨Nat.le_add_right _ _, ⟨front, _, htext, rfl⟩, front ++ inside, rest, ?_, ?_⟩
    · rw [htext, List.append_assoc]
    · exact byteSize_append front inside
  · rintro ⟨hle, ⟨front, more, hfront, rfl⟩, longer, rest, hlonger, rfl⟩
    rcases List.append_eq_append_iff.mp (hfront.symm.trans hlonger) with
      ⟨inside, rfl, rfl⟩ | ⟨excess, rfl, -⟩
    · exact ⟨inside, front, rest, hfront, rfl, (byteSize_append front inside).symm⟩
    · -- the two positions are the same, so nothing is between them
      have hexcess : byteSize excess = 0 := by
        rw [byteSize_append] at hle
        omega
      refine ⟨[], longer ++ excess, more, hfront, rfl, ?_⟩
      rw [byteSize_append, hexcess]
      rfl

theorem slice?_append (front inside rest : List Char) :
    slice? (front ++ (inside ++ rest)) (byteSize front) (byteSize front + byteSize inside) =
      some inside :=
  slice?_eq_some_iff.mpr ⟨front, rest, rfl, rfl, rfl⟩

theorem slice?_to_end (front rest : List Char) :
    slice? (front ++ rest) (byteSize front) (byteSize (front ++ rest)) = some rest :=
  slice?_eq_some_iff.mpr
    ⟨front, [], by rw [List.append_nil], rfl, (byteSize_append front rest).symm⟩

theorem slice?_from_start (inside rest : List Char) :
    slice? (inside ++ rest) 0 (byteSize inside) = some inside :=
  slice?_eq_some_iff.mpr ⟨[], rest, rfl, rfl, Nat.zero_add _⟩

/-- No part starts one byte behind the start of a longer character. -/
theorem slice?_behind_first_byte {c : Char} (h : c.utf8Size ≠ 1) (front rest : List Char)
    (stop : Nat) : slice? (front ++ c :: rest) (byteSize front + 1) stop = none := by
  refine Option.eq_none_iff_forall_ne_some.mpr fun inside hinside ↦ ?_
  obtain ⟨before, after, htext, hsize, -⟩ := slice?_eq_some_iff.mp hinside
  have hpos := c.utf8Size_pos
  rcases List.append_eq_append_iff.mp htext with ⟨more, rfl, hmore⟩ | ⟨more, rfl, -⟩
  · rw [byteSize_append] at hsize
    cases more with
    | nil =>
      rw [byteSize] at hsize
      omega
    | cons d others =>
      obtain ⟨rfl, -⟩ := List.cons.inj hmore
      rw [byteSize] at hsize
      omega
  · rw [byteSize_append] at hsize
    omega

/-! ### Bytes -/

/-- The bytes of a character, each seen as a character of its own. -/
def charBytes (c : Char) : List Char :=
  (String.utf8EncodeChar c).map fun byte ↦ Char.ofNat byte.toNat

def bytes (cs : List Char) : List Char :=
  cs.flatMap charBytes

theorem length_bytes (cs : List Char) : (bytes cs).length = byteSize cs := by
  induction cs with
  | nil => rfl
  | cons c rest ih =>
    rw [bytes, List.flatMap_cons, List.length_append, charBytes, List.length_map,
      String.length_utf8EncodeChar, byteSize]
    exact congrArg _ ih

@[simp] theorem bytes_nil : bytes [] = [] := rfl

theorem bytes_cons (c : Char) (rest : List Char) : bytes (c :: rest) = charBytes c ++ bytes rest :=
  rfl

@[simp] theorem bytes_append (cs ds : List Char) : bytes (cs ++ ds) = bytes cs ++ bytes ds :=
  List.flatMap_append

theorem drop_bytes (front rest : List Char) :
    (bytes (front ++ rest)).drop (byteSize front) = bytes rest := by
  rw [bytes_append, ← length_bytes, List.drop_left]

theorem getElem?_bytes (front rest : List Char) :
    (bytes (front ++ rest))[byteSize front]? = (bytes rest).head? := by
  rw [← drop_bytes front rest, List.head?_drop]

theorem utf8EncodeChar_of_isAscii {c : Char} (h : isAscii c = true) :
    ∃ byte : UInt8, String.utf8EncodeChar c = [byte] ∧ byte.toNat = c.toNat := by
  rw [isAscii, decide_eq_true_eq] at h
  have hsmall : c.val.toNat < 128 := h
  refine ⟨c.val.toUInt8, ?_, ?_⟩
  · exact String.utf8EncodeChar_eq_singleton (Char.utf8Size_eq_one_iff.mpr (Nat.le_of_lt_succ h))
  · rw [UInt32.toNat_toUInt8]
    exact Nat.mod_eq_of_lt (by omega)

theorem charBytes_of_isAscii {c : Char} (h : isAscii c = true) : charBytes c = [c] := by
  obtain ⟨byte, hbyte, hnat⟩ := utf8EncodeChar_of_isAscii h
  rw [charBytes, hbyte, List.map_singleton, hnat, Char.ofNat_toNat]

theorem bytes_cons_of_isAscii {c : Char} (h : isAscii c = true) (rest : List Char) :
    bytes (c :: rest) = c :: bytes rest := by
  rw [bytes_cons, charBytes_of_isAscii h, List.singleton_append]

theorem utf8Size_of_isAscii {c : Char} (h : isAscii c = true) : c.utf8Size = 1 := by
  obtain ⟨byte, hbyte, -⟩ := utf8EncodeChar_of_isAscii h
  rw [← String.length_utf8EncodeChar, hbyte, List.length_singleton]

theorem utf8Size_of_not_isAscii {c : Char} (h : isAscii c = false) : c.utf8Size ≠ 1 := by
  rw [isAscii, decide_eq_false_iff_not] at h
  exact fun hsize ↦ h (Nat.lt_succ_of_le (Char.utf8Size_eq_one_iff.mp hsize))

/-- An ASCII character is a byte of no other character. -/
theorem eq_of_mem_charBytes {c d : Char} (hc : isAscii c = true) (h : c ∈ charBytes d) :
    d = c := by
  obtain ⟨byte, hbyte, rfl⟩ := List.mem_map.mp h
  obtain ⟨own, hown, hnat⟩ := utf8EncodeChar_of_isAscii hc
  have hvalid : byte.toNat.isValidChar := Or.inl (byte.toNat_lt.trans (by decide))
  have hcode : (Char.ofNat byte.toNat).toNat = byte.toNat := by
    rw [Char.ofNat, dif_pos hvalid]
    rfl
  obtain rfl := UInt8.toNat_inj.mp (hnat.trans hcode)
  exact Chars.eq_of_mem_utf8EncodeChar hown hbyte

/-- The bytes of a character outside ASCII. -/
theorem charBytes_of_not_isAscii {c : Char} (h : isAscii c = false) :
    charBytes c ≠ [] ∧ ∀ d ∈ charBytes c, isAscii d = false := by
  refine ⟨?_, fun d hd ↦ Bool.eq_false_iff.mpr fun hascii ↦ ?_⟩
  · rw [charBytes, Ne, List.map_eq_nil_iff]
    exact String.utf8EncodeChar_ne_nil
  · rw [← eq_of_mem_charBytes hascii hd, h] at hascii
    cases hascii

/-- The bytes of a character are a first one and others that are not ASCII. -/
theorem exists_charBytes (c : Char) :
    ∃ first others, charBytes c = first :: others ∧ ∀ b ∈ others, isAscii b = false := by
  cases hc : isAscii c with
  | true => exact ⟨c, [], charBytes_of_isAscii hc, List.forall_mem_nil _⟩
  | false =>
    obtain ⟨hne, hbytes⟩ := charBytes_of_not_isAscii hc
    obtain ⟨first, others, hfirst⟩ := List.exists_cons_of_ne_nil hne
    rw [hfirst, List.forall_mem_cons] at hbytes
    exact ⟨first, others, hfirst, hbytes.2⟩

/-! ### Marks of bytes -/

/-- The bytes of a marked character, marked as it is. -/
def markBytes (mark : Mark) : List Mark :=
  (charBytes mark.char).map fun byte ↦ ⟨byte, mark.kind⟩

/-- What a character is marked as that neither opens nor closes anything. -/
def plainKind : Region → MarkKind
  | .code => .code
  | .string | .character | .textBlock => .literal
  | .lineComment | .blockComment => .comment

theorem markBytes_of_isAscii {c : Char} (h : isAscii c = true) (kind : MarkKind) :
    markBytes ⟨c, kind⟩ = [⟨c, kind⟩] := by
  rw [markBytes, charBytes_of_isAscii h, List.map_singleton]

theorem length_markBytes (mark : Mark) : (markBytes mark).length = mark.char.utf8Size := by
  rw [markBytes, List.length_map, charBytes, List.length_map, String.length_utf8EncodeChar]

theorem marksFrom_cons_of_not_isAscii {c : Char} (h : isAscii c = false) (region : Region)
    (rest : List Char) :
    marksFrom true region (c :: rest) = ⟨c, plainKind region⟩ :: marksFrom true region rest := by
  have hne {d : Char} (hd : isAscii d = true) : c ≠ d := by
    rintro rfl
    rw [hd] at h
    cases h
  have hslash := hne (d := '/') (by decide)
  have hstar := hne (d := '*') (by decide)
  have hquote := hne (d := '"') (by decide)
  have hcharacter := hne (d := '\x27') (by decide)
  have hbackslash := hne (d := '\\') (by decide)
  have hfeed := hne (d := '\n') (by decide)
  cases region <;>
    simp [marksFrom, plainKind, hslash, hstar, hquote, hcharacter, hbackslash, hfeed]

theorem marksFrom_append_of_not_isAscii {front : List Char} (h : ∀ c ∈ front, isAscii c = false)
    (region : Region) (rest : List Char) :
    marksFrom true region (front ++ rest) =
      front.map (⟨·, plainKind region⟩) ++ marksFrom true region rest := by
  induction front with
  | nil => rfl
  | cons c more ih =>
    rw [List.cons_append, marksFrom_cons_of_not_isAscii (h c List.mem_cons_self),
      ih fun d hd ↦ h d (List.mem_cons_of_mem _ hd)]
    rfl

theorem prefix_of_prefix_bytes {p cs : List Char} (hp : ∀ c ∈ p, isAscii c = true)
    (h : p <+: bytes cs) : p <+: cs := by
  induction p generalizing cs with
  | nil => exact List.nil_prefix
  | cons c more ih =>
    cases cs with
    | nil => cases List.prefix_nil.mp h
    | cons d rest =>
      have hc := hp c List.mem_cons_self
      have hne : charBytes d ≠ [] := by
        rw [charBytes, Ne, List.map_eq_nil_iff]
        exact String.utf8EncodeChar_ne_nil
      obtain ⟨first, others, hfirst⟩ := List.exists_cons_of_ne_nil hne
      rw [bytes_cons, hfirst, List.cons_append] at h
      obtain ⟨rfl, -⟩ := List.cons_prefix_cons.mp h
      obtain rfl := eq_of_mem_charBytes hc (hfirst ▸ List.mem_cons_self : c ∈ charBytes d)
      rw [← List.cons_append, ← hfirst, charBytes_of_isAscii hc, List.singleton_append] at h
      refine List.cons_prefix_cons.mpr ⟨rfl, ih (fun e he ↦ hp e (List.mem_cons_of_mem _ he)) ?_⟩
      exact (List.cons_prefix_cons.mp h).2

/-- No sequence goes on among the bytes of a text that does not go on in the text. -/
theorem continues_bytes (rest : List Char) : Continues rest (bytes rest) := by
  constructor
  · intro p hp
    refine prefix_of_prefix_bytes ?_
    simp only [List.mem_cons, List.not_mem_nil, or_false] at hp
    rcases hp with rfl | rfl | rfl <;> exact List.all_eq_true.mp (by decide)
  · rintro rfl
    rfl

section Cons

variable {region after : Region} {c : Char} {rest : List Char}

/-- A character outside ASCII is passed with all its bytes, wherever it stands. -/
theorem marksFrom_bytes_cons_of_not_isAscii (hc : isAscii c = false)
    (ih : marksFrom true region (bytes rest) = (marksFrom true region rest).flatMap markBytes) :
    marksFrom true region (bytes (c :: rest)) =
      (⟨c, plainKind region⟩ :: marksFrom true region rest).flatMap markBytes := by
  rw [bytes_cons, marksFrom_append_of_not_isAscii (charBytes_of_not_isAscii hc).2,
    List.flatMap_cons, ih]
  rfl

/-- An escape among bytes skips the first byte of a character, and the others are no different from
it. -/
theorem marksFrom_bytes_escape (h : plainKind region = .literal)
    (ih : marksFrom true region (bytes rest) = (marksFrom true region rest).flatMap markBytes) :
    marksFrom true region (bytes ('\\' :: c :: rest)) =
      (⟨'\\', .literal⟩ :: ⟨c, .literal⟩ :: marksFrom true region rest).flatMap markBytes := by
  have hskip (b : Char) (others : List Char) : marksFrom true region ('\\' :: b :: others) =
      ⟨'\\', .literal⟩ :: ⟨b, .literal⟩ :: marksFrom true region others := by
    cases region <;> first | rfl | cases h
  obtain ⟨first, others, hfirst, hothers⟩ := exists_charBytes c
  rw [bytes_cons_of_isAscii (by decide), bytes_cons, hfirst, List.cons_append, hskip,
    marksFrom_append_of_not_isAscii hothers, h, ih, List.flatMap_cons, List.flatMap_cons,
    markBytes_of_isAscii (by decide), markBytes, hfirst]
  rfl

/-- An ASCII character is its own byte, so it is read as in the text if the reading does not depend
on what follows. -/
theorem marksFrom_bytes_cons_of_isAscii {kind : MarkKind} (hc : isAscii c = true)
    (hmarks : ∀ tail, Continues rest tail →
      marksFrom true region (c :: tail) = ⟨c, kind⟩ :: marksFrom true after tail)
    (ih : marksFrom true after (bytes rest) = (marksFrom true after rest).flatMap markBytes) :
    marksFrom true region (bytes (c :: rest)) =
      (⟨c, kind⟩ :: marksFrom true after rest).flatMap markBytes := by
  rw [bytes_cons_of_isAscii hc, hmarks _ (continues_bytes rest), List.flatMap_cons,
    markBytes_of_isAscii hc, List.singleton_append, ih]

theorem not_or_beq_of_not_isAscii (hc : isAscii c = false) {d e : Char} (hd : isAscii d = true)
    (he : isAscii e = true) : ¬(c == d || c == e) = true := by
  rw [Bool.or_eq_true, beq_iff_eq, beq_iff_eq]
  rintro (rfl | rfl)
  · rw [hd] at hc
    cases hc
  · rw [he] at hc
    cases hc

end Cons

/-- The bytes of a text are marked as the characters to which they belong. -/
theorem marksFrom_bytes (region : Region) (cs : List Char) :
    marksFrom true region (bytes cs) = (marksFrom true region cs).flatMap markBytes := by
  fun_induction marksFrom true region cs with
  | case1 region =>
    rw [bytes_nil, marksFrom_nil]
    rfl
  | case2 rest ih => exact congrArg ([⟨'/', .comment⟩, ⟨'/', .comment⟩] ++ ·) ih
  | case3 rest ih => exact congrArg ([⟨'/', .comment⟩, ⟨'*', .comment⟩] ++ ·) ih
  | case4 rest ih | case12 rest ih =>
    exact congrArg ([⟨'"', .literal⟩, ⟨'"', .literal⟩, ⟨'"', .literal⟩] ++ ·) ih
  | case5 c rest hline hblock htriple hquote ih =>
    refine marksFrom_bytes_cons_of_isAscii (beq_iff_eq.mp hquote ▸ by decide) (fun tail h ↦ ?_) ih
    rw [marksFrom_code_cons true (fun more hc ↦ h.slash (hline · hc))
      (fun more hc ↦ h.star (hblock · hc)) (fun more hc ↦ h.quotes (htriple · hc)), if_pos hquote]
  | case6 c rest hline hblock htriple hquote hcharacter ih =>
    refine marksFrom_bytes_cons_of_isAscii (beq_iff_eq.mp hcharacter ▸ by decide)
      (fun tail h ↦ ?_) ih
    rw [marksFrom_code_cons true (fun more hc ↦ h.slash (hline · hc))
      (fun more hc ↦ h.star (hblock · hc)) (fun more hc ↦ h.quotes (htriple · hc)),
      if_neg hquote, if_pos hcharacter]
  | case7 c rest hline hblock htriple hquote hcharacter ih =>
    cases hc : isAscii c with
    | false => exact marksFrom_bytes_cons_of_not_isAscii hc ih
    | true =>
      exact marksFrom_bytes_cons_of_isAscii hc
        (stepsTo_code hquote hcharacter hline hblock).marks_eq ih
  | case8 c rest ih | case10 c rest ih | case13 c rest _ ih => exact marksFrom_bytes_escape rfl ih
  | case9 c rest hescape ih | case11 c rest hescape ih =>
    cases hc : isAscii c with
    | false =>
      rw [if_neg (not_or_beq_of_not_isAscii hc (by decide) (by decide))] at ih ⊢
      exact marksFrom_bytes_cons_of_not_isAscii hc ih
    | true =>
      refine marksFrom_bytes_cons_of_isAscii hc (fun tail h ↦ ?_) ih
      rw [marksFrom]
      exact fun d more hc ↦ h.nil (hescape · · hc) d
  | case14 c rest hnone => exact absurd rfl hnone
  | case15 c rest htriple hescape ih =>
    cases hc : isAscii c with
    | false => exact marksFrom_bytes_cons_of_not_isAscii hc ih
    | true =>
      refine marksFrom_bytes_cons_of_isAscii hc (fun tail h ↦ ?_) ih
      rw [marksFrom]
      · exact fun more hc ↦ h.quotes (htriple · hc)
      · exact fun d more hc ↦ h.nil (hescape · · hc) d
  | case16 c rest hfeed ih =>
    refine marksFrom_bytes_cons_of_isAscii (beq_iff_eq.mp hfeed ▸ by decide) (fun tail h ↦ ?_) ih
    rw [marksFrom, if_pos hfeed]
  | case17 c rest hfeed ih =>
    cases hc : isAscii c with
    | false => exact marksFrom_bytes_cons_of_not_isAscii hc ih
    | true =>
      refine marksFrom_bytes_cons_of_isAscii hc (fun tail h ↦ ?_) ih
      rw [marksFrom, if_neg hfeed]
  | case18 rest ih => exact congrArg ([⟨'*', .comment⟩, ⟨'/', .blockEnd⟩] ++ ·) ih
  | case19 c rest hclose ih =>
    cases hc : isAscii c with
    | false => exact marksFrom_bytes_cons_of_not_isAscii hc ih
    | true =>
      refine marksFrom_bytes_cons_of_isAscii hc (fun tail h ↦ ?_) ih
      rw [marksFrom]
      exact fun more hc ↦ h.slash (hclose · hc)

theorem marks_bytes (cs : List Char) : marks (bytes cs) = (marks cs).flatMap markBytes :=
  marksFrom_bytes .code cs

/-! ### Searches -/

/-- The position of the first code byte at or after `start` that satisfies `p`. -/
def findCode? (p : Char → Bool) (cs : List Char) (start : Nat) : Option Nat :=
  ((marks ((bytes cs).drop start)).findIdx? fun mark ↦ mark.kind == .code && p mark.char).map
    (start + ·)

/-- The position of the bracket that closes the last one that is open, from the mark at `position`
on. The count of open brackets must not fall below zero. -/
def closeFrom (opening closing : Char) : Nat → Nat → List Mark → Option (Option Nat)
  | _, _, [] => some none
  | depth, position, mark :: rest =>
      if mark.isCode opening then closeFrom opening closing (depth + 1) (position + 1) rest
      else if mark.isCode closing then do
        let inner ← minus? depth 1
        if inner == 0 then return some position
        else closeFrom opening closing inner (position + 1) rest
      else closeFrom opening closing depth (position + 1) rest

/-- The inside of the bracketed region that opens at a position, and the position at which it is
closed. -/
def scanDelimited (opening closing : Char) (cs : List Char) (position : Nat) :
    Option (Option (List Char × Nat)) :=
  if (bytes cs)[position]? = some opening then do
    match ← closeFrom opening closing 0 position (marks ((bytes cs).drop position)) with
    | none => return none
    | some close => return some (← slice? cs (position + 1) close, close)
  else some none

theorem findIdx?_markBytes {p : Char → Bool} (hp : ∀ c, p c = true → isAscii c = true)
    (ms : List Mark) :
    (ms.flatMap markBytes).findIdx? (fun mark ↦ mark.kind == .code && p mark.char) =
      (breakMarks? p ms).map fun cut ↦ byteSize cut.1 := by
  induction ms with
  | nil => rfl
  | cons mark rest ih =>
    rw [List.flatMap_cons, breakMarks?]
    split
    next hmark =>
      rw [Bool.and_eq_true] at hmark
      rw [markBytes_of_isAscii (hp _ hmark.2), List.singleton_append, List.findIdx?_cons,
        if_pos (by rw [hmark.1, hmark.2]; rfl)]
      rfl
    next hmark =>
      have hown : (markBytes mark).findIdx? (fun mark ↦ mark.kind == .code && p mark.char) =
          none := by
        rw [List.findIdx?_eq_none_iff]
        intro byte hbyte
        obtain ⟨b, hb, rfl⟩ := List.mem_map.mp hbyte
        refine Bool.eq_false_iff.mpr fun hcode ↦ hmark ?_
        rw [Bool.and_eq_true] at hcode ⊢
        rw [eq_of_mem_charBytes (hp b hcode.2) hb]
        exact hcode
      rw [List.findIdx?_append, hown, ih, Option.none_or, Option.map_map, Option.map_map,
        length_markBytes]
      exact congrArg (Option.map · _) (funext fun cut ↦ Nat.add_comm _ _)

theorem findCode?_append {p : Char → Bool} (hp : ∀ c, p c = true → isAscii c = true)
    (front rest : List Char) :
    findCode? p (front ++ rest) (byteSize front) =
      (breakCode? p rest).map fun cut ↦ byteSize front + byteSize cut.1 := by
  rw [findCode?, drop_bytes, marks_bytes, findIdx?_markBytes hp, Option.map_map]
  rfl

/-- A text that is cut at a code character is what stands around it. -/
theorem eq_append_of_breakCode? {p : Char → Bool} {cs before after : List Char} {c : Char}
    (h : breakCode? p cs = some (before, c, after)) : cs = before ++ c :: after ∧ p c = true := by
  rw [breakCode?, breakMarks?_eq] at h
  obtain ⟨⟨front, found, back⟩, hsplit, hcut⟩ := Option.map_eq_some_iff.mp h
  obtain ⟨rfl, hpair⟩ := Prod.mk.inj hcut
  obtain ⟨rfl, rfl⟩ := Prod.mk.inj hpair
  obtain ⟨hmarks, hfound, -⟩ := splitMarks?_eq_some hsplit
  refine ⟨?_, hfound⟩
  rw [← textOf_marks cs, hmarks, textOf_append, textOf_cons]

section Close

variable {opening closing : Char}

/-- A search passes marks that are no brackets. -/
theorem closeFrom_append_other {front : List Mark}
    (h : ∀ mark ∈ front, mark.isCode opening = false ∧ mark.isCode closing = false)
    (depth position : Nat) (rest : List Mark) :
    closeFrom opening closing depth position (front ++ rest) =
      closeFrom opening closing depth (position + front.length) rest := by
  induction front generalizing position with
  | nil => rfl
  | cons mark more ih =>
    obtain ⟨hopening, hclosing⟩ := h mark List.mem_cons_self
    rw [List.cons_append, closeFrom, hopening, hclosing, if_neg Bool.false_ne_true,
      if_neg Bool.false_ne_true, ih fun m hm ↦ h m (List.mem_cons_of_mem _ hm), List.length_cons,
      Nat.add_right_comm, Nat.add_assoc]

theorem isCode_markBytes {c : Char} (hc : isAscii c = true) {mark byte : Mark}
    (h : mark.isCode c = false) (hbyte : byte ∈ markBytes mark) : byte.isCode c = false := by
  obtain ⟨b, hb, rfl⟩ := List.mem_map.mp hbyte
  refine Bool.eq_false_iff.mpr fun hcode ↦ ?_
  rw [Mark.isCode, Bool.and_eq_true, beq_iff_eq, beq_iff_eq] at hcode
  obtain ⟨hkind, rfl⟩ := hcode
  rw [Mark.isCode, hkind, eq_of_mem_charBytes hc hb] at h
  simp at h

variable (hopening : isAscii opening = true) (hclosing : isAscii closing = true)

include hopening hclosing

/-- The count of open brackets is one more than the number of inner ones. -/
theorem closeFrom_markBytes (depth position : Nat) (ms : List Mark) :
    closeFrom opening closing (depth + 1) position (ms.flatMap markBytes) =
      some ((Java.closeFrom opening closing depth ms).map fun cut ↦
        position + byteSize cut.before) := by
  -- a mark before the closing bracket moves the position by the size of its character
  have hpush (size : Nat) (mark : Mark) (hsize : mark.char.utf8Size = size) (position : Nat)
      (found : Option Cut) : (found.map fun cut ↦ position + size + byteSize cut.before) =
        (found.map (Cut.push mark.char)).map fun cut ↦ position + byteSize cut.before := by
    rw [Option.map_map, ← hsize]
    exact congrArg (Option.map · found) (funext fun cut ↦ Nat.add_assoc _ _ _)
  induction ms generalizing depth position with
  | nil => rfl
  | cons mark rest ih =>
    rw [List.flatMap_cons]
    cases hmark : mark.isCode opening with
    | true =>
      obtain rfl := eq_of_isCode hmark
      rw [markBytes_of_isAscii hopening, List.singleton_append, closeFrom, hmark, if_pos rfl, ih,
        closeFrom_cons_opening _ _ hmark, ← hpush 1 _ (utf8Size_of_isAscii hopening)]
    | false =>
      cases hclose : mark.isCode closing with
      | true =>
        obtain rfl := eq_of_isCode hclose
        rw [markBytes_of_isAscii hclosing, List.singleton_append, closeFrom, hmark, hclose,
          if_neg Bool.false_ne_true, if_pos rfl, minus?_eq_some_iff.mpr (Nat.add_comm 1 depth)]
        cases depth with
        | zero =>
          rw [closeFrom_zero_cons_closing _ hmark hclose]
          rfl
        | succ inner =>
          rw [closeFrom_cons_closing _ _ hmark hclose, ← hpush 1 _ (utf8Size_of_isAscii hclosing),
            ← ih]
          rfl
      | false =>
        have hother : ∀ byte ∈ markBytes mark,
            byte.isCode opening = false ∧ byte.isCode closing = false := fun byte hbyte ↦
          ⟨isCode_markBytes hopening hmark hbyte, isCode_markBytes hclosing hclose hbyte⟩
        rw [closeFrom_append_other hother, ih, closeFrom_cons_other _ _ hmark hclose,
          length_markBytes, hpush _ mark rfl]

end Close

/-- A bracketed region is its brackets with what they enclose. -/
theorem eq_append_of_enclosed? {opening closing : Char} {cs : List Char} {cut : Cut}
    (h : enclosed? opening closing cs = some cut) :
    cs = opening :: (cut.before ++ closing :: cut.after) := by
  have htext := textOf_marks cs
  unfold enclosed? at h
  split at h
  next => cases h
  next mark rest hmarks =>
    split at h
    next hopening =>
      rw [closeFrom_eq] at h
      obtain ⟨⟨inside, after⟩, hclose, rfl⟩ := Option.map_eq_some_iff.mp h
      rw [hmarks, eq_of_isCode hopening, closeMarks?_eq_some hclose] at htext
      rw [← htext, textOf_cons, textOf_append, textOf_cons]
    next => cases h

/-- A bracketed region is found in place as it is in the text, and its inside can be taken from the
text. -/
theorem scanDelimited_append (opening closing : Char) (hplain : isPlain opening = true)
    (hopening : isAscii opening = true) (hclosing : isAscii closing = true)
    (front rest : List Char) :
    scanDelimited opening closing (front ++ rest) (byteSize front) =
      some ((enclosed? opening closing rest).map fun cut ↦
        (cut.before, byteSize front + 1 + byteSize cut.before)) := by
  rw [scanDelimited, getElem?_bytes, drop_bytes]
  by_cases hhead : (bytes rest).head? = some opening
  · obtain ⟨more, rfl⟩ : ∃ more, rest = opening :: more := by
      obtain ⟨others, hothers⟩ := List.head?_eq_some_iff.mp hhead
      have hfirst : [opening] <+: bytes rest := ⟨others, hothers.symm⟩
      obtain ⟨more, hmore⟩ := prefix_of_prefix_bytes (by simpa using hopening) hfirst
      exact ⟨more, hmore.symm⟩
    have henclosed : enclosed? opening closing (opening :: more) =
        Java.closeFrom opening closing 0 (marks more) := by
      rw [enclosed?, marks_cons_of_isPlain hplain]
      exact if_pos (isCode_self opening)
    rw [if_pos hhead, bytes_cons_of_isAscii hopening, marks_cons_of_isPlain hplain, marks_bytes,
      closeFrom, isCode_self, if_pos rfl, closeFrom_markBytes hopening hclosing, henclosed]
    cases hclose : Java.closeFrom opening closing 0 (marks more) with
    | none => rfl
    | some cut =>
      have htext := eq_append_of_enclosed? (henclosed.trans hclose)
      have hsize : byteSize (front ++ [opening]) = byteSize front + 1 := by
        rw [byteSize_append, byteSize, byteSize, utf8Size_of_isAscii hopening]
      have hslice := slice?_append (front ++ [opening]) cut.before (closing :: cut.after)
      rw [hsize, List.append_assoc, List.singleton_append, ← htext] at hslice
      simp [hslice]
  · rw [if_neg hhead]
    cases henclosed : enclosed? opening closing rest with
    | none => rfl
    | some cut =>
      rw [eq_append_of_enclosed? henclosed, bytes_cons_of_isAscii hopening] at hhead
      exact absurd rfl hhead

/-! ### Comments -/

/-- What is left of a text without its comments, from the mark at `position` on. Text is still to be
taken from `keep` on, unless the reading stands in a comment. -/
def stripFrom (cs : List Char) (inComment : Bool) (keep position : Nat) :
    List Mark → Option (List Char)
  | [] => if inComment then some [] else slice? cs (min keep (byteSize cs)) (byteSize cs)
  | mark :: rest =>
      match mark.kind with
      | .code | .literal => stripFrom cs inComment keep (position + 1) rest
      | .comment =>
          if inComment then stripFrom cs true keep (position + 1) rest
          else do
            let kept ← slice? cs keep position
            return kept ++ (← stripFrom cs true keep (position + 1) rest)
      | .lineEnd => stripFrom cs false position (position + 1) rest
      | .blockEnd => do return ' ' :: (← stripFrom cs false (position + 1) (position + 1) rest)

def stripCommentChars (cs : List Char) : Option (List Char) :=
  stripFrom cs false 0 0 (marks (bytes cs))

section Strip

variable {text : List Char} {front : List Mark}

theorem length_flatMap_markBytes (ms : List Mark) :
    (ms.flatMap markBytes).length = byteSize (textOf ms) := by
  induction ms with
  | nil => rfl
  | cons mark rest ih =>
    rw [List.flatMap_cons, List.length_append, length_markBytes, ih, textOf_cons, byteSize]

theorem kind_of_mem_flatMap_markBytes {p : MarkKind → Prop} (h : ∀ mark ∈ front, p mark.kind) :
    ∀ byte ∈ front.flatMap markBytes, p byte.kind := by
  intro byte hbyte
  obtain ⟨mark, hmark, hbyte⟩ := List.mem_flatMap.mp hbyte
  obtain ⟨_, _, rfl⟩ := List.mem_map.mp hbyte
  exact h mark hmark

theorem stripFrom_append_kept (h : ∀ mark ∈ front, mark.kind = .code ∨ mark.kind = .literal)
    (inComment : Bool) (keep position : Nat) (rest : List Mark) :
    stripFrom text inComment keep position (front.flatMap markBytes ++ rest) =
      stripFrom text inComment keep (position + byteSize (textOf front)) rest := by
  rw [← length_flatMap_markBytes]
  have hkinds := kind_of_mem_flatMap_markBytes (p := fun kind ↦ kind = .code ∨ kind = .literal) h
  generalize front.flatMap markBytes = marks at hkinds
  induction marks generalizing position with
  | nil => rfl
  | cons mark more ih =>
    rw [List.forall_mem_cons] at hkinds
    rw [List.length_cons, Nat.add_comm more.length, ← Nat.add_assoc, ← ih _ hkinds.2,
      List.cons_append, stripFrom]
    rcases hkinds.1 with hkind | hkind <;> rw [hkind]

theorem stripFrom_append_comment (h : ∀ mark ∈ front, mark.kind = .comment) (keep position : Nat)
    (rest : List Mark) :
    stripFrom text true keep position (front.flatMap markBytes ++ rest) =
      stripFrom text true keep (position + byteSize (textOf front)) rest := by
  rw [← length_flatMap_markBytes]
  have hkinds := kind_of_mem_flatMap_markBytes (p := (· = .comment)) h
  generalize front.flatMap markBytes = marks at hkinds
  induction marks generalizing position with
  | nil => rfl
  | cons mark more ih =>
    rw [List.forall_mem_cons] at hkinds
    rw [List.length_cons, Nat.add_comm more.length, ← Nat.add_assoc, ← ih _ hkinds.2,
      List.cons_append, stripFrom, hkinds.1]
    rfl

/-- Where a comment opens, the text before it is taken. -/
theorem stripFrom_append_opening (h : ∀ mark ∈ front, mark.kind = .comment) (hne : front ≠ [])
    {keep position : Nat} {kept : List Char} (hkept : slice? text keep position = some kept)
    (rest : List Mark) :
    stripFrom text false keep position (front.flatMap markBytes ++ rest) =
      (stripFrom text true keep (position + byteSize (textOf front)) rest).map (kept ++ ·) := by
  rw [← stripFrom_append_comment h]
  obtain ⟨mark, more, rfl⟩ := List.exists_cons_of_ne_nil hne
  have hbytes : markBytes mark ≠ [] := by
    rw [← List.length_pos_iff, length_markBytes]
    exact mark.char.utf8Size_pos
  obtain ⟨first, others, hfirst⟩ := List.exists_cons_of_ne_nil hbytes
  have hkind : first.kind = .comment := by
    refine kind_of_mem_flatMap_markBytes (p := (· = .comment)) h first ?_
    rw [List.flatMap_cons, hfirst]
    exact List.mem_append_left _ List.mem_cons_self
  rw [List.flatMap_cons, hfirst, List.cons_append, List.cons_append, stripFrom, stripFrom, hkind]
  simp only [hkept, Bool.false_eq_true, if_false, if_true, Option.bind_eq_bind, Option.bind_some,
    Option.pure_def]
  exact (Option.map_eq_bind ..).symm

end Strip

/-- The comments of the rest of a text are removed in place as they are in the text, whether text in
front of it is still to be taken or the reading stands in a comment. -/
structure StripsFrom (text : List Char) (region : Region) (cs : List Char) : Prop where
  outside : region.isComment = false → ∀ done kept, text = done ++ (kept ++ cs) →
    stripFrom text false (byteSize done) (byteSize done + byteSize kept)
        ((marksFrom true region cs).flatMap markBytes) =
      some (kept ++ (marksFrom true region cs).flatMap Mark.withoutComment)
  inside : region.isComment = true → ∀ done keep, text = done ++ cs →
    stripFrom text true keep (byteSize done) ((marksFrom true region cs).flatMap markBytes) =
      some ((marksFrom true region cs).flatMap Mark.withoutComment)

theorem StripsFrom.nil (text : List Char) (region : Region) : StripsFrom text region [] where
  outside _ done kept htext := by
    rw [List.append_nil] at htext
    have hle : byteSize done ≤ byteSize text := by
      rw [htext, byteSize_append]
      exact Nat.le_add_right _ _
    rw [marksFrom_nil]
    refine (congrArg (slice? text · (byteSize text)) (Nat.min_eq_left hle)).trans ?_
    rw [htext, slice?_to_end]
    simp
  inside _ _ _ _ := by
    rw [marksFrom_nil]
    rfl

section Step

variable {text cs rest : List Char} {region after : Region} {front : List Mark}
  (hstep : StepsTo region cs front after rest) (hrest : StripsFrom text after rest)

include hstep hrest

theorem StripsFrom.of_kept (hkinds : ∀ mark ∈ front, mark.kind = .code ∨ mark.kind = .literal)
    (hregion : region.isComment = false) (hafter : after.isComment = false) :
    StripsFrom text region cs where
  outside _ done kept hdone := by
    have hsame : front.flatMap Mark.withoutComment = textOf front := by
      rw [← textOf_uncommented, uncommented_eq_self hkinds]
    have htext : text = done ++ ((kept ++ textOf front) ++ rest) := by
      rw [hdone, hstep.text_eq, List.append_assoc]
    rw [hstep.marksFrom_eq, List.flatMap_append, List.flatMap_append, stripFrom_append_kept hkinds,
      Nat.add_assoc, ← byteSize_append, hrest.outside hafter done _ htext, hsame,
      List.append_assoc]
  inside h := by
    rw [hregion] at h
    cases h

theorem StripsFrom.of_comment (hkinds : ∀ mark ∈ front, mark.kind = .comment)
    (hafter : after.isComment = true) : StripsFrom text region cs := by
  have hnone : front.flatMap Mark.withoutComment = [] := by
    rw [← textOf_uncommented, uncommented_eq_nil hkinds, textOf, List.map_nil]
  constructor
  · intro _ done kept hdone
    have hkept : slice? text (byteSize done) (byteSize done + byteSize kept) = some kept := by
      rw [hdone]
      exact slice?_append done kept cs
    have htext : text = (done ++ (kept ++ textOf front)) ++ rest := by
      rw [hdone, hstep.text_eq, List.append_assoc, List.append_assoc]
    rw [hstep.marksFrom_eq, List.flatMap_append, List.flatMap_append,
      stripFrom_append_opening hkinds hstep.ne_nil hkept, Nat.add_assoc, ← byteSize_append,
      ← byteSize_append, hrest.inside hafter _ _ htext, hnone]
    rfl
  · intro _ done keep hdone
    have htext : text = (done ++ textOf front) ++ rest := by
      rw [hdone, hstep.text_eq, List.append_assoc]
    rw [hstep.marksFrom_eq, List.flatMap_append, List.flatMap_append,
      stripFrom_append_comment hkinds, ← byteSize_append, hrest.inside hafter _ _ htext, hnone]
    rfl

end Step

/-- One step of the scanner leaves the comments behind it to be removed. -/
theorem StripsFrom.of_stepsTo {text cs rest : List Char} {region after : Region}
    {front : List Mark} (hstep : StepsTo region cs front after rest)
    (hrest : StripsFrom text after rest) : StripsFrom text region cs := by
  cases hstep.step with
  | code c => exact .of_kept hstep hrest (by simp) rfl rfl
  | literal hregion hafter hkinds =>
    exact .of_kept hstep hrest (fun mark hmark ↦ Or.inr (hkinds mark hmark)) hregion hafter
  | comment hregion hafter hkinds => exact .of_comment hstep hrest hkinds hafter
  | lineEnd =>
    refine ⟨nofun, fun _ done keep hdone ↦ ?_⟩
    rw [hstep.marksFrom_eq]
    exact hrest.outside rfl done ['\n'] (by rw [hdone, hstep.text_eq]; rfl)
  | blockEnd =>
    refine ⟨nofun, fun _ done keep hdone ↦ ?_⟩
    have hspace := hrest.outside rfl (done ++ ['*', '/']) []
      (by rw [hdone, hstep.text_eq, List.append_assoc]; rfl)
    rw [byteSize_append] at hspace
    rw [hstep.marksFrom_eq]
    exact congrArg (Option.bind · fun stripped ↦ some (' ' :: stripped)) hspace

theorem stripsFrom (text : List Char) (region : Region) (cs : List Char) :
    StripsFrom text region cs := by
  induction hlength : cs.length using Nat.strongRecOn generalizing region cs with
  | ind n ih =>
    by_cases hne : cs = []
    · exact hne ▸ .nil text region
    · obtain ⟨front, next, rest, hstep⟩ := exists_stepsTo region hne
      exact .of_stepsTo hstep (ih rest.length (hlength ▸ hstep.length_lt) next rest rfl)

/-- Comments are removed in place as they are in the text. -/
theorem stripCommentChars_eq (cs : List Char) :
    stripCommentChars cs = some (Java.stripCommentChars cs) := by
  rw [stripCommentChars, marks_bytes]
  exact (stripsFrom cs .code cs).outside rfl [] [] rfl

end SuiteMigration.Java.InPlace
