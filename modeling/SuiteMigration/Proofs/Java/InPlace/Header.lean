import SuiteMigration.Proofs.Java.InPlace.Scan
import SuiteMigration.Proofs.Java.NestedOutline

/-!
Headers in place. Annotations are cut out of a header at byte positions that come from searches for
ASCII bytes and from the sizes of names and of white space, so every part that is taken lies between
characters, and the reading goes on until the header ends.
-/

set_option autoImplicit false
set_option relaxedAutoImplicit false

namespace SuiteMigration.Java.InPlace

open SuiteMigration.Chars (byteSize)
open SuiteMigration.Text (contains isAscii isBlank words)

/-! ### Argument lists -/

/-- Cuts an argument list with a count of open brackets that may reach `bound` on both sides of
zero. -/
def argumentsFrom (bound : Nat) :
    Quotation → Int → List Char → List Char → Option (List (List Char))
  | _, _, current, [] =>
      let last := Chars.trim current.reverse
      some (if last.isEmpty then [] else [last])
  | q, depth, current, c :: rest =>
      if q == .outside && c == ',' && depth ≤ 0 then do
        return Chars.trim current.reverse :: (← argumentsFrom bound .outside depth [] rest)
      else
        let depth :=
          if q == .outside then
            if isOpenBracket c then depth + 1 else if isCloseBracket c then depth - 1 else depth
          else depth
        if depth.natAbs ≤ bound then
          argumentsFrom bound (q.next (fun c ↦ c == '"' || c == '\x27') c) depth (c :: current) rest
        else none

/-- The arguments of a list; the count of open brackets stays within the length of the list. -/
def splitArguments (text : String) : Option (List String) := do
  return (← argumentsFrom text.length .outside 0 [] text.toList).map String.ofList

theorem argumentsFrom_eq {bound : Nat} (q : Quotation) {depth : Int} (current : List Char)
    {cs : List Char} (h : depth.natAbs + cs.length ≤ bound) :
    argumentsFrom bound q depth current cs = some (Java.argumentsFrom q depth current cs) := by
  induction cs generalizing q depth current with
  | nil => rfl
  | cons c rest ih =>
    rw [List.length_cons] at h
    rw [argumentsFrom, Java.argumentsFrom]
    split
    · rw [ih _ _ (by omega)]
      rfl
    · rw [add_bracketChange]
      have hchange : (bracketChange q c).natAbs ≤ 1 := by
        unfold bracketChange
        split
        · split
          · exact le_rfl
          · split <;> decide
        · decide
      rw [if_pos (by omega), ih _ _ (by omega)]

theorem splitArguments_eq (text : String) :
    splitArguments text = some (Java.splitArguments text) := by
  rw [splitArguments, argumentsFrom_eq _ _ (by simp [String.length_toList])]
  rfl

/-! ### Annotations -/

/-- The position at which a text ends that the rest of it follows. -/
def startOf (cs rest : List Char) : Nat :=
  byteSize cs - byteSize rest

theorem startOf_append (front rest : List Char) :
    startOf (front ++ rest) rest = byteSize front := by
  rw [startOf, byteSize_append, Nat.add_sub_cancel]

/-- The position behind the string literal that starts at a position. -/
def literalEnd (cs : List Char) (position : Nat) : Nat :=
  position + 1 + (literalCut ((bytes cs).drop (position + 1))).before.length

/-- The annotation whose name starts at a position, and the position behind it. -/
def readAnnotationUse (cs : List Char) (start : Nat) :
    Option (Except OutlineError (AnnotationUse × Nat)) := do
  let tail ← slice? cs start (byteSize cs)
  let nameEnd := start + byteSize (tail.takeWhile isAnnotationChar)
  let name := String.ofList (simpleName (← slice? cs start nameEnd))
  let after := Chars.trimStart (← slice? cs nameEnd (byteSize cs))
  let gap ← minus? (← minus? (byteSize cs) nameEnd) (byteSize after)
  if after.head? = some '(' then
    match ← scanDelimited '(' ')' cs (nameEnd + gap) with
    | some (args, close) => return .ok (⟨name, String.ofList (Chars.trim args)⟩, close + 1)
    | none => return .error (.unclosedArguments name)
  else return .ok (⟨name, ""⟩, nameEnd)

/-- Reads a header from a position on, until its end. -/
def annotationsFrom (cs : List Char) :
    Nat → List AnnotationUse → List Char → Nat →
      Option (Except OutlineError (List AnnotationUse × List Char))
  | 0, _, _, _ => none
  | fuel + 1, found, rest, position =>
      match (bytes cs)[position]? with
      | none => some (.ok (found.reverse, rest))
      | some byte =>
          if byte == '"' then do
            let stop := literalEnd cs position
            let piece ← slice? cs position stop
            annotationsFrom cs fuel found (rest ++ piece) stop
          else if byte == '@' then do
            match ← readAnnotationUse cs (position + 1) with
            | .ok (item, next) => annotationsFrom cs fuel (item :: found) rest next
            | .error e => return .error e
          else do
            let tail ← slice? cs position (byteSize cs)
            let stop := position + (tail.head?.map Char.utf8Size).getD 1
            let piece ← slice? cs position stop
            annotationsFrom cs fuel found (rest ++ piece) stop

def splitAnnotations (header : String) : Option (Except OutlineError Header) := do
  let cs := header.toList
  match ← annotationsFrom cs (cs.length + 1) [] [] 0 with
  | .ok (annotations, rest) => return .ok ⟨annotations, String.ofList (Chars.collapse rest)⟩
  | .error e => return .error e

theorem literalCut_cons {c : Char} {rest : List Char} (hquote : c ≠ '"')
    (hescape : ∀ d more, c = '\\' → rest = d :: more → False) :
    literalCut (c :: rest) = (literalCut rest).prepend [c] := by
  rw [literalCut]
  · rfl
  · exact hquote
  · exact hescape

theorem literalCut_append_of_not_isAscii {front : List Char} (h : ∀ c ∈ front, isAscii c = false)
    (rest : List Char) : literalCut (front ++ rest) = (literalCut rest).prepend front := by
  induction front with
  | nil => rfl
  | cons c more ih =>
    rw [List.forall_mem_cons] at h
    have hne {d : Char} (hd : isAscii d = true) : c ≠ d := by
      rintro rfl
      exact Bool.eq_false_iff.mp h.1 hd
    rw [List.cons_append, literalCut_cons (hne (by decide)) fun _ _ hc ↦
      absurd hc (hne (by decide)), ih h.2]
    rfl

/-- A literal ends among bytes where it ends in the text. -/
theorem literalCut_bytes (cs : List Char) :
    literalCut (bytes cs) = ⟨bytes (literalCut cs).before, bytes (literalCut cs).after⟩ := by
  fun_induction literalCut cs with
  | case1 => rfl
  | case2 rest => rfl
  | case3 c rest ih =>
    -- the escape takes the first byte of the character, and its other bytes end nothing
    obtain ⟨b, more, hmore, hbytes⟩ := exists_charBytes c
    have hcut : literalCut (bytes ('\\' :: c :: rest)) =
        ((literalCut (more ++ bytes rest)).push b).push '\\' := by
      rw [bytes_cons_of_isAscii (by decide), bytes_cons, hmore]
      rfl
    rw [hcut, literalCut_append_of_not_isAscii hbytes, ih]
    simp only [Cut.push, Cut.prepend, bytes_cons_of_isAscii (c := '\\') (by decide), bytes_cons c,
      hmore, List.cons_append]
  | case4 c rest hquote hescape ih =>
    cases hc : isAscii c with
    | true =>
      rw [bytes_cons_of_isAscii hc, literalCut_cons hquote fun d more heq ↦
        (continues_bytes rest).nil (hescape · · heq) d, ih]
      simp only [Cut.push, Cut.prepend, bytes_cons_of_isAscii hc, List.singleton_append]
    | false =>
      rw [bytes_cons, literalCut_append_of_not_isAscii (charBytes_of_not_isAscii hc).2, ih]
      rfl

theorem before_append_after_literalCut (cs : List Char) :
    (literalCut cs).before ++ (literalCut cs).after = cs := by
  fun_induction literalCut cs with
  | case1 => rfl
  | case2 rest => rfl
  | case3 c rest ih => exact congrArg ('\\' :: c :: ·) ih
  | case4 c rest _ _ ih => exact congrArg (c :: ·) ih

theorem literalEnd_append (front rest : List Char) :
    literalEnd (front ++ '"' :: rest) (byteSize front) =
      byteSize front + byteSize ('"' :: (literalCut rest).before) := by
  have hdrop : (bytes (front ++ '"' :: rest)).drop (byteSize front + 1) = bytes rest := by
    have h := drop_bytes (front ++ ['"']) rest
    rwa [byteSize_append, List.append_assoc] at h
  rw [literalEnd, hdrop, literalCut_bytes, length_bytes, Nat.add_assoc]
  rfl

theorem startOf_enclosed {opening closing : Char} (hopening : isAscii opening = true)
    (hclosing : isAscii closing = true) (front : List Char) {rest : List Char} {cut : Cut}
    (h : enclosed? opening closing rest = some cut) :
    startOf (front ++ rest) cut.after = byteSize front + 1 + byteSize cut.before + 1 := by
  have htext : front ++ rest =
      (front ++ ([opening] ++ (cut.before ++ [closing]))) ++ cut.after := by
    rw [eq_append_of_enclosed? h]
    simp
  have hsize {c : Char} (hc : isAscii c = true) : byteSize [c] = 1 := utf8Size_of_isAscii hc
  rw [htext, startOf_append, byteSize_append, byteSize_append, byteSize_append, hsize hopening,
    hsize hclosing, Nat.add_assoc, Nat.add_assoc]

section Use

variable {name gap after : List Char}
  (hname : (name ++ (gap ++ after)).takeWhile isAnnotationChar = name)
  (hgap : Chars.trimStart (gap ++ after) = after)

include hname hgap

/-- The use of an annotation, in the parts of its text: the name, white space, and what follows. -/
theorem readAnnotationUse_of_parts :
    Java.readAnnotationUse (name ++ (gap ++ after)) =
      if after.head? = some '(' then
        match enclosed? '(' ')' after with
        | some cut =>
            .ok (⟨String.ofList (simpleName name), String.ofList (Chars.trim cut.before)⟩,
              cut.after)
        | none => .error (.unclosedArguments (String.ofList (simpleName name)))
      else .ok (⟨String.ofList (simpleName name), ""⟩, gap ++ after) := by
  have hbehind : (name ++ (gap ++ after)).dropWhile isAnnotationChar = gap ++ after := by
    have h := List.takeWhile_append_dropWhile (p := isAnnotationChar) (l := name ++ (gap ++ after))
    rw [hname] at h
    exact List.append_cancel_left h
  have hpart : (fun c ↦ isNameChar c || c == '.') = isAnnotationChar := rfl
  unfold Java.readAnnotationUse
  dsimp only
  rw [hpart, hbehind, hname, hgap]
  split
  next inside => rfl
  next hother =>
    refine (if_neg fun hopen ↦ ?_).symm
    obtain ⟨inside, hinside⟩ := List.head?_eq_some_iff.mp hopen
    exact hother inside hinside

theorem readAnnotationUse_in_parts (front : List Char) :
    readAnnotationUse (front ++ (name ++ (gap ++ after))) (byteSize front) =
      some (if after.head? = some '(' then
        match enclosed? '(' ')' after with
        | some cut =>
            .ok (⟨String.ofList (simpleName name), String.ofList (Chars.trim cut.before)⟩,
              byteSize front + byteSize name + byteSize gap + 1 + byteSize cut.before + 1)
        | none => .error (.unclosedArguments (String.ofList (simpleName name)))
      else .ok (⟨String.ofList (simpleName name), ""⟩, byteSize front + byteSize name)) := by
  have htail := slice?_to_end front (name ++ (gap ++ after))
  have hpart := slice?_append front name (gap ++ after)
  have hlast := slice?_to_end (front ++ name) (gap ++ after)
  rw [List.append_assoc, byteSize_append front name] at hlast
  have hleft : minus? (byteSize (front ++ (name ++ (gap ++ after))))
      (byteSize front + byteSize name) = some (byteSize (gap ++ after)) := by
    rw [minus?_eq_some_iff, byteSize_append front, byteSize_append name, Nat.add_assoc]
  have hsize : minus? (byteSize (gap ++ after)) (byteSize after) = some (byteSize gap) := by
    rw [minus?_eq_some_iff, byteSize_append, Nat.add_comm]
  have hscan := scanDelimited_append '(' ')' (by decide) (by decide)
    (by decide) (front ++ (name ++ gap)) after
  rw [List.append_assoc, List.append_assoc, byteSize_append front, byteSize_append name,
    ← Nat.add_assoc] at hscan
  unfold readAnnotationUse
  simp only [htail, hname, hpart, hlast, hgap, hleft, hsize, hscan, Option.bind_eq_bind,
    Option.bind_some]
  split
  · cases enclosed? '(' ')' after <;> rfl
  · rfl

end Use

theorem readAnnotationUse_append (front rest : List Char) :
    readAnnotationUse (front ++ rest) (byteSize front) =
      some ((Java.readAnnotationUse rest).map fun found ↦
        (found.1, startOf (front ++ rest) found.2)) := by
  obtain ⟨name, gap, after, rfl, hname, hgap⟩ : ∃ name gap after, rest = name ++ (gap ++ after) ∧
      (name ++ (gap ++ after)).takeWhile isAnnotationChar = name ∧
        Chars.trimStart (gap ++ after) = after := by
    have hbehind : (rest.dropWhile isAnnotationChar).takeWhile isBlank ++
        Chars.trimStart (rest.dropWhile isAnnotationChar) = rest.dropWhile isAnnotationChar :=
      List.takeWhile_append_dropWhile
    refine ⟨rest.takeWhile isAnnotationChar, _, _, ?_, ?_, congrArg Chars.trimStart hbehind⟩
    · rw [hbehind, List.takeWhile_append_dropWhile]
    · rw [hbehind, List.takeWhile_append_dropWhile]
  rw [readAnnotationUse_of_parts hname hgap, readAnnotationUse_in_parts hname hgap]
  split
  · cases henclosed : enclosed? '(' ')' after with
    | none => rfl
    | some cut =>
      have hstart := startOf_enclosed (by decide) (by decide) (front ++ (name ++ gap))
        henclosed
      rw [List.append_assoc, List.append_assoc, byteSize_append, byteSize_append,
        ← Nat.add_assoc] at hstart
      simp only [Except.map, hstart]
  · have hstart := startOf_append (front ++ name) (gap ++ after)
    rw [List.append_assoc, byteSize_append] at hstart
    simp only [Except.map, hstart]

/-- The byte at the start of a text tells whether it starts with an ASCII character. -/
theorem exists_head?_bytes (c : Char) (rest : List Char) :
    ∃ byte, (bytes (c :: rest)).head? = some byte ∧
      ∀ d, isAscii d = true → (byte == d) = (c == d) := by
  cases hc : isAscii c with
  | true => exact ⟨c, by rw [bytes_cons_of_isAscii hc, List.head?_cons], fun _ _ ↦ rfl⟩
  | false =>
    obtain ⟨hne, hbytes⟩ := charBytes_of_not_isAscii hc
    obtain ⟨first, others, hfirst⟩ := List.exists_cons_of_ne_nil hne
    rw [hfirst, List.forall_mem_cons] at hbytes
    refine ⟨first, by rw [bytes_cons, hfirst, List.cons_append, List.head?_cons], fun d hd ↦ ?_⟩
    have hother {b : Char} (hb : isAscii b = false) : (b == d) = false := by
      refine beq_eq_false_iff_ne.mpr ?_
      rintro rfl
      exact Bool.eq_false_iff.mp hb hd
    rw [hother hbytes.1, hother hc]

/-- A header is read in place as it is in the text, and to its end. -/
theorem annotationsFrom_append {fuel : Nat} (front : List Char) {rest : List Char}
    (h : rest.length < fuel) (found : List AnnotationUse) (kept : List Char) :
    annotationsFrom (front ++ rest) fuel found kept (byteSize front) =
      some (Java.annotationsFrom fuel found kept.reverse rest) := by
  induction fuel generalizing front rest found kept with
  | zero => exact absurd h (Nat.not_lt_zero _)
  | succ fuel ih =>
    rw [annotationsFrom, getElem?_bytes]
    cases rest with
    | nil =>
      rw [bytes_nil, List.head?_nil, Java.annotationsFrom, List.reverse_reverse]
    | cons c rest =>
      rw [List.length_cons] at h
      -- a piece of the text is kept, and the reading goes on behind it
      have hpiece (piece : List Char) {more : List Char} (htext : piece ++ more = c :: rest)
          (hlength : more.length ≤ rest.length) :
          ((slice? (front ++ c :: rest) (byteSize front) (byteSize front + byteSize piece)).bind
            fun part ↦ annotationsFrom (front ++ c :: rest) fuel found (kept ++ part)
              (byteSize front + byteSize piece)) =
            some (Java.annotationsFrom fuel found (piece.reverse ++ kept.reverse) more) := by
        have hmore : more.length < fuel := by omega
        have hrest := ih (front ++ piece) hmore found (kept ++ piece)
        rw [List.append_assoc, htext, byteSize_append, List.reverse_append] at hrest
        rw [← htext, slice?_append, htext, Option.bind_some, hrest]
      obtain ⟨byte, hbyte, hsame⟩ := exists_head?_bytes c rest
      rw [hbyte, Java.annotationsFrom]
      simp only [hsame '"' (by decide), hsame '@' (by decide)]
      split
      next hquote =>
        obtain rfl := beq_iff_eq.mp hquote
        have hcut : '"' :: (literalCut rest).before ++ (literalCut rest).after = '"' :: rest :=
          congrArg ('"' :: ·) (before_append_after_literalCut rest)
        rw [literalEnd_append]
        refine (hpiece _ hcut (literalCut_suffix rest).length_le).trans ?_
        rw [List.reverse_cons, List.append_assoc]
        rfl
      next hquote =>
        split
        next hsign =>
          obtain rfl := beq_iff_eq.mp hsign
          have hread := readAnnotationUse_append (front ++ ['@']) rest
          rw [List.append_assoc, List.singleton_append, byteSize_append] at hread
          rw [show byteSize front + 1 = byteSize front + byteSize ['@'] from rfl, hread]
          cases hitem : Java.readAnnotationUse rest with
          | error e => rfl
          | ok read =>
            obtain ⟨item, after⟩ := read
            obtain ⟨middle, rfl⟩ := readAnnotationUse_suffix hitem
            have hafter : after.length < fuel := by
              have hlength := (List.suffix_append middle after).length_le
              omega
            have hstart := startOf_append (front ++ '@' :: middle) after
            have hrest := ih (front ++ '@' :: middle) hafter (item :: found) kept
            rw [List.append_assoc, List.cons_append] at hstart hrest
            rw [← hstart] at hrest
            exact hrest
        next hsign =>
          rw [slice?_to_end]
          exact hpiece [c] rfl le_rfl

theorem splitAnnotations_eq (header : String) :
    splitAnnotations header = some (Java.splitAnnotations header) := by
  have hread := annotationsFrom_append [] (Nat.lt_succ_self header.toList.length) [] []
  rw [List.nil_append, List.reverse_nil] at hread
  unfold splitAnnotations Java.splitAnnotations
  simp only [show 0 = byteSize [] from rfl, hread, Option.bind_eq_bind, Option.bind_some]
  cases Java.annotationsFrom (header.toList.length + 1) [] [] header.toList <;> rfl

/-! ### Methods -/

def parameterName (declaration : String) : Option (Option String) := do
  match ← splitAnnotations declaration with
  | .error _ => return none
  | .ok header =>
      match (words header.rest).getLast? with
      | none => return none
      | some word =>
          let name := dropStarts ['.', '.', '.'] word.length word.toList
          return if name.isEmpty then none else some (String.ofList name)

def parameterNames (params : String) : Option (List String) := do
  return (← (← splitArguments params).mapM parameterName).reduceOption

/-- The position behind the first byte of the last character that belongs to no name. -/
def nameStart (cs : List Char) : Nat :=
  match cs.reverse.dropWhile isNameChar with
  | [] => 0
  | _ :: earlier => byteSize earlier.reverse + 1

/-- The method that a block header declares. -/
def methodOf (header : String) (body : String) (annotations : List AnnotationUse)
    (className : Option String) : Option (Option Method) := do
  if contains header "=" || contains header "class " || contains header "interface " then
    return none
  else
    match findCode? (· == '(') header.toList 0 with
    | none => return none
    | some opening =>
        match ← scanDelimited '(' ')' header.toList opening with
        | none => return none
        | some (params, _) =>
            let before := Chars.trimEnd (← slice? header.toList 0 opening)
            let name := String.ofList (← slice? before (nameStart before) (byteSize before))
            if name.isEmpty || isControlKeyword name then return none
            else
              let modifiers := String.ofList (← slice? before 0 (nameStart before))
              return some
                { name, params := ← parameterNames (String.ofList params), body, annotations,
                  isPublic := (words modifiers).contains "public",
                  isConstructor := className == some name }

theorem parameterName_eq (declaration : String) :
    parameterName declaration = some (parameterName? declaration) := by
  unfold parameterName parameterName?
  rw [splitAnnotations_eq, Option.bind_eq_bind, Option.bind_some]
  cases Java.splitAnnotations declaration with
  | error e => rfl
  | ok header =>
    dsimp only
    cases (words header.rest).getLast? <;> rfl

theorem parameterNames_eq (params : String) :
    parameterNames params = some (Java.parameterNames params) := by
  have hnames (declarations : List String) :
      declarations.mapM parameterName = some (declarations.map parameterName?) := by
    rw [funext parameterName_eq]
    exact List.mapM_pure
  unfold parameterNames Java.parameterNames
  rw [splitArguments_eq]
  simp only [Option.bind_eq_bind, Option.bind_some, hnames]
  exact congrArg some List.filterMap_map

/-- What stands before a parameter list: the name, and the modifiers with the symbol behind them. -/
theorem exists_modifiers (before : List Char) :
    ∃ modifiers name, before = modifiers ++ name ∧
      before.reverse.takeWhile isNameChar = name.reverse ∧
      before.reverse.dropWhile isNameChar = modifiers.reverse := by
  refine ⟨(before.reverse.dropWhile isNameChar).reverse,
    (before.reverse.takeWhile isNameChar).reverse, ?_, ?_, ?_⟩
  · rw [← List.reverse_append, List.takeWhile_append_dropWhile, List.reverse_reverse]
  · rw [List.reverse_reverse]
  · rw [List.reverse_reverse]

section Modifiers

variable {modifiers name : List Char}
  (h : (modifiers ++ name).reverse.dropWhile isNameChar = modifiers.reverse)

include h

/-- Behind an ASCII symbol, or without any symbol, a name starts between characters. -/
theorem nameStart_append (hsymbol : ∀ c ∈ modifiers.getLast?, isAscii c = true) :
    nameStart (modifiers ++ name) = byteSize modifiers := by
  rw [nameStart, h]
  rcases List.eq_nil_or_concat modifiers with rfl | ⟨earlier, symbol, rfl⟩
  · rfl
  · rw [List.concat_eq_append, List.reverse_append, List.reverse_singleton, List.singleton_append,
      byteSize_append]
    rw [List.concat_eq_append, List.getLast?_concat] at hsymbol
    simp only [List.reverse_reverse]
    rw [byteSize, utf8Size_of_isAscii (hsymbol symbol rfl)]
    rfl

/-- Behind any other symbol it starts within one. -/
theorem slice?_nameStart {symbol : Char} (hlast : modifiers.getLast? = some symbol)
    (hsymbol : isAscii symbol = false) (stop : Nat) :
    slice? (modifiers ++ name) (nameStart (modifiers ++ name)) stop = none := by
  obtain ⟨earlier, rfl⟩ := List.getLast?_eq_some_iff.mp hlast
  rw [nameStart, h, List.reverse_append, List.reverse_singleton, List.singleton_append,
    List.append_assoc, List.singleton_append]
  simp only [List.reverse_reverse]
  exact slice?_behind_first_byte (utf8Size_of_not_isAscii hsymbol) earlier name stop

end Modifiers

theorem methodOf_eq (header body : String) (annotations : List AnnotationUse)
    (className : Option String) :
    methodOf header body annotations className =
      (methodOf? header body annotations className).toOption := by
  have hfind : findCode? (· == '(') header.toList 0 =
      (breakCode? (· == '(') header.toList).map fun cut ↦ byteSize cut.1 := by
    have h := findCode?_append (p := (· == '(')) (by simp; decide) [] header.toList
    simpa [byteSize] using h
  unfold methodOf methodOf?
  rw [hfind]
  split
  · rfl
  · cases hbreak : breakCode? (· == '(') header.toList with
    | none => rfl
    | some cut =>
      obtain ⟨before, c, after⟩ := cut
      obtain ⟨htext, hc⟩ := eq_append_of_breakCode? hbreak
      obtain rfl := beq_iff_eq.mp hc
      have hscan := scanDelimited_append '(' ')' (by decide) (by decide)
        (by decide) before ('(' :: after)
      have hbefore := slice?_from_start before ('(' :: after)
      rw [← htext] at hscan hbefore
      simp only [Option.map_some, hscan, hbefore, Option.bind_eq_bind, Option.bind_some]
      cases enclosed? '(' ')' ('(' :: after) with
      | none => rfl
      | some params =>
        obtain ⟨modifiers, name, hparts, hname, hmodifiers⟩ :=
          exists_modifiers (Chars.trimEnd before)
        rw [hparts] at hname hmodifiers ⊢
        simp only [Option.map_some, hname, hmodifiers, List.reverse_reverse, List.head?_reverse]
        cases hsymbol : modifiers.getLast?.filter fun c ↦ !isAscii c with
        | some symbol =>
          rw [Option.filter_eq_some_iff, Bool.not_eq_true'] at hsymbol
          rw [slice?_nameStart hmodifiers hsymbol.1 hsymbol.2]
          rfl
        | none =>
          rw [Option.filter_eq_none_iff] at hsymbol
          rw [nameStart_append hmodifiers fun c hc ↦ by simpa using hsymbol c hc, slice?_to_end,
            slice?_from_start, parameterNames_eq]
          simp only [Option.bind_some]
          split <;> rfl

end SuiteMigration.Java.InPlace
