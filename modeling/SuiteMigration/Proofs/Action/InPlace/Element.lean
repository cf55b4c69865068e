import SuiteMigration.Action.Extraction
import SuiteMigration.Proofs.Action.InlineLocator
import SuiteMigration.Proofs.Java.InPlace.Header

/-!
Elements in place. Names, white space and points of a call chain are told by their ASCII bytes, so
every name and every argument list is taken between characters; the places at which the reading
stands are the starts of the remaining texts. Arguments are taken from a call by their positions,
and the inside of a literal by the positions of its quotes. An argument is shorter than the
expression it stands in, so the search for nested elements comes to its end.
-/

set_option autoImplicit false
set_option relaxedAutoImplicit false

namespace SuiteMigration.Java.InPlace

open SuiteMigration.Chars (byteSize)
open SuiteMigration.Text (isAscii isAsciiBlank isAsciiDigit isAsciiLetter)

/-- A reading that ends with a result or without one, unless it breaks off. -/
abbrev Reading := OptionT Option

/-- The reading that ends as told. -/
def reading {α : Type} (result : Option α) : Reading α :=
  OptionT.mk (some result)

section Reading

variable {α β : Type}

theorem reading_some (a : α) : reading (some a) = pure a := rfl

theorem reading_none : reading (none : Option α) = failure := rfl

theorem reading_bind (result : Option α) (f : α → Option β) :
    reading (result >>= f) = reading result >>= fun a ↦ reading (f a) := by
  cases result <;> rfl

theorem reading_map (result : Option α) (f : α → β) :
    reading (result.map f) = f <$> reading result := by
  cases result <;> rfl

theorem lift_some_bind_reading (a : α) (f : α → Reading β) :
    OptionT.lift (some a) >>= f = f a := rfl

end Reading

/-! ### Positions -/

/-- The position behind the bytes of one kind that stand at a position. -/
def skipFrom (p : Char → Bool) (cs : List Char) (position : Nat) : Nat :=
  position + (((bytes cs).drop position).takeWhile p).length

/-- The name at a position, and the position behind it. -/
def wordFrom (cs : List Char) (position : Nat) : Option (String × Nat) := do
  let stop := skipFrom isChainNameChar cs position
  return (String.ofList (← slice? cs position stop), stop)

theorem takeWhile_bytes {p : Char → Bool} (hp : ∀ c, p c = true → isAscii c = true)
    (cs : List Char) : (bytes cs).takeWhile p = bytes (cs.takeWhile p) := by
  induction cs with
  | nil => rfl
  | cons c rest ih =>
    cases hc : isAscii c with
    | true =>
      rw [bytes_cons_of_isAscii hc, List.takeWhile_cons, List.takeWhile_cons, ih]
      split
      · rw [bytes_cons_of_isAscii hc]
      · rfl
    | false =>
      have hother {d : Char} (hd : isAscii d = false) : ¬p d = true := fun h ↦
        Bool.eq_false_iff.mp hd (hp d h)
      obtain ⟨hne, hbytes⟩ := charBytes_of_not_isAscii hc
      obtain ⟨first, others, hfirst⟩ := List.exists_cons_of_ne_nil hne
      rw [hfirst, List.forall_mem_cons] at hbytes
      rw [bytes_cons, hfirst, List.cons_append, List.takeWhile_cons_of_neg (hother hbytes.1),
        List.takeWhile_cons_of_neg (hother hc), bytes_nil]

theorem head?_bytes_eq_some_iff {d : Char} (hd : isAscii d = true) {cs : List Char} :
    (bytes cs).head? = some d ↔ cs.head? = some d := by
  cases cs with
  | nil => rfl
  | cons c rest =>
    obtain ⟨byte, hbyte, hsame⟩ := exists_head?_bytes c rest
    rw [hbyte, List.head?_cons, Option.some_inj, Option.some_inj, ← beq_iff_eq (a := byte),
      hsame d hd, beq_iff_eq]

theorem isAscii_of_isAsciiBlank {c : Char} (h : isAsciiBlank c = true) : isAscii c = true := by
  simp only [isAsciiBlank, Bool.or_eq_true, beq_iff_eq] at h
  rcases h with (((rfl | rfl) | rfl) | rfl) | rfl <;> decide

theorem isAscii_of_isChainNameChar {c : Char} (h : isChainNameChar c = true) :
    isAscii c = true := by
  have hbelow {d : Char} (hc : c ≤ d) (hd : d.toNat < 128) : isAscii c = true :=
    decide_eq_true ((show c.toNat ≤ d.toNat from hc).trans_lt hd)
  simp only [isChainNameChar, isAsciiLetter, isAsciiDigit, Bool.or_eq_true, Bool.and_eq_true,
    decide_eq_true_eq, beq_iff_eq] at h
  rcases h with (((⟨-, h⟩ | ⟨-, h⟩) | ⟨-, h⟩) | rfl) | rfl
  · exact hbelow h (by decide)
  · exact hbelow h (by decide)
  · exact hbelow h (by decide)
  · decide
  · decide

section Position

variable {cs rest : List Char} (h : rest <:+ cs)

include h

theorem exists_startOf : ∃ front, cs = front ++ rest ∧ startOf cs rest = byteSize front := by
  obtain ⟨front, rfl⟩ := h
  exact ⟨front, rfl, startOf_append front rest⟩

theorem getElem?_startOf : (bytes cs)[startOf cs rest]? = (bytes rest).head? := by
  obtain ⟨front, rfl, hstart⟩ := exists_startOf h
  rw [hstart, getElem?_bytes]

theorem skipFrom_startOf {p : Char → Bool} (hp : ∀ c, p c = true → isAscii c = true) :
    skipFrom p cs (startOf cs rest) = startOf cs (rest.dropWhile p) := by
  obtain ⟨front, rfl, hstart⟩ := exists_startOf h
  have hend := startOf_append (front ++ rest.takeWhile p) (rest.dropWhile p)
  rw [List.append_assoc, List.takeWhile_append_dropWhile] at hend
  rw [skipFrom, hstart, hend, drop_bytes, takeWhile_bytes hp, length_bytes, byteSize_append]

theorem slice?_takeWhile (p : Char → Bool) :
    slice? cs (startOf cs rest) (startOf cs (rest.dropWhile p)) = some (rest.takeWhile p) := by
  obtain ⟨front, rfl, hstart⟩ := exists_startOf h
  have hend := startOf_append (front ++ rest.takeWhile p) (rest.dropWhile p)
  have hslice := slice?_append front (rest.takeWhile p) (rest.dropWhile p)
  rw [List.append_assoc, List.takeWhile_append_dropWhile] at hend
  rwa [List.takeWhile_append_dropWhile, ← byteSize_append, ← hend, ← hstart] at hslice

theorem wordFrom_startOf : wordFrom cs (startOf cs rest) =
    some (String.ofList (rest.takeWhile isChainNameChar),
      startOf cs (rest.dropWhile isChainNameChar)) := by
  rw [wordFrom, skipFrom_startOf h fun _ ↦ isAscii_of_isChainNameChar, slice?_takeWhile h]
  rfl

end Position

/-! ### Links -/

/-- The name of a link, and the position behind it. -/
def chainName (cs : List Char) (position : Nat) : Reading (String × Nat) := do
  let (name, stop) ← OptionT.lift (wordFrom cs (skipFrom isAsciiBlank cs position))
  if name.isEmpty then failure
  else if name == "new" then
    let (type, stop) ← OptionT.lift (wordFrom cs (skipFrom isAsciiBlank cs stop))
    if type.isEmpty then failure else return ("new " ++ type, stop)
  else return (name, stop)

/-- One link, and the position behind it. -/
def chainLink (cs : List Char) (position : Nat) : Reading (Link × Nat) := do
  let (name, stop) ← chainName cs position
  let stop := skipFrom isAsciiBlank cs stop
  if (bytes cs)[stop]? = some '(' then
    let (inside, close) ← OptionT.mk (scanDelimited '(' ')' cs stop)
    let args ← OptionT.lift (splitArguments (String.ofList inside))
    return (⟨name, some args⟩, close + 1)
  else return (⟨name, none⟩, stop)

/-- The links from a position on, until the text ends. -/
def chainFrom (cs : List Char) : Nat → Nat → Reading (List Link)
  | 0, _ => OptionT.mk none
  | fuel + 1, position => do
      let (link, stop) ← chainLink cs position
      let stop := skipFrom isAsciiBlank cs stop
      match (bytes cs)[stop]? with
      | none => return [link]
      | some byte =>
          if byte == '.' then return link :: (← chainFrom cs fuel (stop + 1)) else failure

/-- Drops the first link as long as it is a plain `this` and not the only one. -/
def dropThis (links : List Link) : Option (List Link) :=
  if 1 < links.length then do
    let first ← links[0]?
    if first.name == "this" && first.args?.isNone then dropThis links.tail else return links
  else return links
termination_by links.length
decreasing_by
  rw [List.length_tail]
  omega

/-- The links of an expression. -/
def callChain (expr : String) : Reading (List Link) := do
  let links ← chainFrom expr.toList (expr.toList.length + 1) 0
  OptionT.lift (dropThis links)

theorem skipAsciiBlanks_suffix (cs : List Char) : skipAsciiBlanks cs <:+ cs :=
  List.dropWhile_suffix _

theorem chainName?_suffix {rest tail : List Char} {name : String}
    (h : chainName? rest = some (name, tail)) : tail <:+ rest := by
  obtain ⟨lead, text, rfl, -⟩ := chainName?_eq_some h
  exact (List.suffix_append text tail).trans (List.suffix_append lead _)

theorem chainLink?_suffix {rest tail : List Char} {link : Link}
    (h : chainLink? rest = some (link, tail)) : tail <:+ rest := by
  cases hname : chainName? rest with
  | none =>
    rw [chainLink?, hname] at h
    cases h
  | some found =>
    obtain ⟨name, behind⟩ := found
    have hbehind := (skipAsciiBlanks_suffix behind).trans (chainName?_suffix hname)
    by_cases hopen : (skipAsciiBlanks behind).head? = some '('
    · obtain ⟨more, hmore⟩ := List.head?_eq_some_iff.mp hopen
      rw [chainLink?_of_call hname hmore] at h
      obtain ⟨cut, hcut, hpair⟩ := Option.map_eq_some_iff.mp h
      obtain ⟨-, rfl⟩ := Prod.mk.inj hpair
      rw [hmore, eq_append_of_enclosed? hcut] at hbehind
      refine List.IsSuffix.trans ⟨'(' :: (cut.before ++ [')']), ?_⟩ hbehind
      rw [List.cons_append, List.append_assoc, List.singleton_append]
    · rw [chainLink?_of_reference hname hopen] at h
      cases h
      exact hbehind

section Position

variable {cs rest : List Char} (h : rest <:+ cs)

include h

theorem chainName_startOf : chainName cs (startOf cs rest) =
    reading ((chainName? rest).map fun found ↦ (found.1, startOf cs found.2)) := by
  have hskip {tail : List Char} (htail : tail <:+ cs) :
      wordFrom cs (skipFrom isAsciiBlank cs (startOf cs tail)) =
        some (String.ofList ((skipAsciiBlanks tail).takeWhile isChainNameChar),
          startOf cs ((skipAsciiBlanks tail).dropWhile isChainNameChar)) := by
    rw [skipFrom_startOf htail fun _ ↦ isAscii_of_isAsciiBlank]
    exact wordFrom_startOf ((skipAsciiBlanks_suffix tail).trans htail)
  have hbehind : (skipAsciiBlanks rest).dropWhile isChainNameChar <:+ cs :=
    ((List.dropWhile_suffix _).trans (skipAsciiBlanks_suffix rest)).trans h
  unfold chainName chainName?
  simp only [hskip h, lift_some_bind_reading, hskip hbehind]
  split
  · rfl
  · split
    · split <;> rfl
    · rfl

theorem chainLink_startOf : chainLink cs (startOf cs rest) =
    reading ((chainLink? rest).map fun found ↦ (found.1, startOf cs found.2)) := by
  rw [chainLink, chainName_startOf h]
  cases hname : chainName? rest with
  | none =>
    rw [chainLink?, hname]
    rfl
  | some found =>
    obtain ⟨name, tail⟩ := found
    have htail := (chainName?_suffix hname).trans h
    have hafter := (skipAsciiBlanks_suffix tail).trans htail
    have hstop : skipFrom isAsciiBlank cs (startOf cs tail) = startOf cs (skipAsciiBlanks tail) :=
      skipFrom_startOf htail fun _ ↦ isAscii_of_isAsciiBlank
    have hbyte : (bytes cs)[startOf cs (skipAsciiBlanks tail)]? = some '(' ↔
        (skipAsciiBlanks tail).head? = some '(' := by
      rw [getElem?_startOf hafter, head?_bytes_eq_some_iff (by decide)]
    rw [Option.map_some, reading_some, pure_bind]
    dsimp only
    rw [hstop]
    by_cases hopen : (skipAsciiBlanks tail).head? = some '('
    · obtain ⟨more, hmore⟩ := List.head?_eq_some_iff.mp hopen
      rw [if_pos (hbyte.mpr hopen), chainLink?_of_call hname hmore]
      rw [hmore] at hafter ⊢
      obtain ⟨front, rfl, hstart⟩ := exists_startOf hafter
      rw [hstart, scanDelimited_append _ _ (by decide) (by decide) (by decide)]
      cases hcut : enclosed? '(' ')' ('(' :: more) with
      | none => rfl
      | some cut =>
        have hend := startOf_enclosed (by decide) (by decide) front hcut
        simp only [Option.map_some, hend, splitArguments_eq]
        rfl
    · rw [if_neg (hbyte.not.mpr hopen), chainLink?_of_reference hname hopen]
      rfl

end Position

theorem startOf_cons {cs rest : List Char} {c : Char} (hc : isAscii c = true)
    (h : c :: rest <:+ cs) : startOf cs rest = startOf cs (c :: rest) + 1 := by
  obtain ⟨front, rfl⟩ := h
  have hstart := startOf_append (front ++ [c]) rest
  rw [List.append_assoc, List.singleton_append, byteSize_append, byteSize,
    utf8Size_of_isAscii hc] at hstart
  rw [hstart, startOf_append, byteSize]

/-- A chain is read in place as it is in the text, and to its end. -/
theorem chainFrom_startOf {fuel : Nat} {cs rest : List Char} (h : rest <:+ cs)
    (hfuel : rest.length < fuel) :
    chainFrom cs fuel (startOf cs rest) = reading (Java.chainFrom fuel rest) := by
  induction fuel generalizing rest with
  | zero => exact absurd hfuel (Nat.not_lt_zero _)
  | succ fuel ih =>
    rw [chainFrom, chainLink_startOf h, chainFrom_succ]
    cases hlink : chainLink? rest with
    | none =>
      rw [linkAndTail?, hlink]
      rfl
    | some found =>
      obtain ⟨link, behind⟩ := found
      have hread : linkAndTail? rest = some (link, skipAsciiBlanks behind) := by
        rw [linkAndTail?, hlink, Option.map_some]
      obtain ⟨text, htext, hlinkText⟩ := linkAndTail?_eq_some hread
      have hbehind := (chainLink?_suffix hlink).trans h
      have htail := (skipAsciiBlanks_suffix behind).trans hbehind
      have hstop : skipFrom isAsciiBlank cs (startOf cs behind) =
          startOf cs (skipAsciiBlanks behind) :=
        skipFrom_startOf hbehind fun _ ↦ isAscii_of_isAsciiBlank
      have hlength : (skipAsciiBlanks behind).length < rest.length := by
        have hpos := hlinkText.length_pos
        rw [htext, List.length_append]
        omega
      rw [hread, Option.map_some, reading_some, pure_bind, Option.bind_some]
      dsimp only
      rw [hstop, getElem?_startOf htail]
      generalize skipAsciiBlanks behind = tail at htail hlength
      cases tail with
      | nil => rfl
      | cons c more =>
        obtain ⟨byte, hbyte, hsame⟩ := exists_head?_bytes c more
        rw [hbyte]
        dsimp only
        rw [hsame '.' (by decide)]
        by_cases hc : c = '.'
        · subst hc
          have hmore : more.length < fuel := by
            rw [List.length_cons] at hlength
            omega
          have hrest := ih ((List.suffix_cons _ more).trans htail) hmore
          rw [startOf_cons (by decide) htail] at hrest
          rw [if_pos (beq_self_eq_true '.'), hrest]
          exact (reading_map ..).symm
        · rw [if_neg (by simpa using hc)]
          split
          next hnil => cases hnil
          next hpoint => exact absurd (List.cons.inj hpoint).1 hc
          next => rfl

theorem dropThis_eq (links : List Link) : dropThis links = some (Java.dropThis links) := by
  induction links with
  | nil =>
    rw [dropThis]
    rfl
  | cons first rest ih =>
    rw [dropThis]
    cases rest with
    | nil => rfl
    | cons second rest =>
      have hmore : 1 < (first :: second :: rest).length := by simp
      rw [if_pos hmore, Java.dropThis, List.getElem?_cons_zero, List.tail_cons, ih,
        Option.bind_eq_bind, Option.bind_some]
      split <;> rfl

theorem callChain_eq (expr : String) : callChain expr = reading (callChain? expr) := by
  have hstart : startOf expr.toList expr.toList = 0 := Nat.sub_self _
  have hlinks := chainFrom_startOf List.suffix_rfl (Nat.lt_succ_self expr.toList.length)
  rw [hstart] at hlinks
  rw [callChain, hlinks, callChain?]
  cases Java.chainFrom (expr.toList.length + 1) expr.toList with
  | none => rfl
  | some links =>
    rw [reading_some, pure_bind, dropThis_eq]
    rfl

end SuiteMigration.Java.InPlace

namespace SuiteMigration.InPlace

open SuiteMigration.Chars (byteSize)
open SuiteMigration.Java SuiteMigration.Text
open SuiteMigration.Java.InPlace (Reading callChain callChain_eq lift_some_bind_reading minus?
  minus?_eq_some_iff reading reading_bind reading_map reading_none reading_some slice?
  slice?_append)

/-! ### Entries of lists -/

section Entry

variable {α : Type}

/-- The entry at a position of a list; without one the reading breaks off. -/
def entry (items : List α) (position : Nat) : Reading α :=
  OptionT.lift items[position]?

/-- The entries between two positions of a list. -/
def part? (items : List α) (start stop : Nat) : Option (List α) :=
  if start ≤ stop ∧ stop ≤ items.length then some ((items.take stop).drop start) else none

theorem entry_of_getElem? {items : List α} {position : Nat} {item : α}
    (h : items[position]? = some item) : entry items position = reading (some item) := by
  rw [entry, h]
  rfl

theorem part?_from_start {items : List α} {stop : Nat} (h : stop ≤ items.length) :
    part? items 0 stop = some (items.take stop) := by
  rw [part?, if_pos ⟨Nat.zero_le stop, h⟩, List.drop_zero]

theorem part?_to_end {items : List α} {start : Nat} (h : start ≤ items.length) :
    part? items start items.length = some (items.drop start) := by
  rw [part?, if_pos ⟨h, le_rfl⟩, List.take_length]

end Entry

/-- The results for the entries of a list that have one. -/
def collect {α β : Type} (f : α → Reading β) (items : List α) : Option (List β) := do
  return (← items.mapM fun item ↦ (f item).run).filterMap id

theorem collect_eq {α β : Type} {f : α → Reading β} {g : α → Option β}
    (h : ∀ item, f item = reading (g item)) (items : List α) :
    collect f items = some (items.filterMap g) := by
  have hrun : (fun item ↦ (f item).run) = fun item ↦ pure (g item) :=
    funext fun item ↦ congrArg OptionT.run (h item)
  rw [collect, hrun, List.mapM_pure, pure_bind, List.filterMap_map]
  rfl

/-- The argument of a call with one argument. -/
def onlyArgument (call : Link) : Reading String :=
  if call.args.length == 1 then entry call.args 0 else failure

theorem onlyArgument_of_args {call : Link} {arg : String} (h : call.args = [arg]) :
    onlyArgument call = reading (some arg) := by
  rw [onlyArgument, h]
  rfl

theorem onlyArgument_of_other {call : Link} (h : ∀ arg, call.args ≠ [arg]) :
    onlyArgument call = reading none := by
  refine if_neg fun hlength ↦ ?_
  obtain ⟨arg, harg⟩ := List.length_eq_one_iff.mp (beq_iff_eq.mp hlength)
  exact h arg harg

theorem onlyArgument_bind {α : Type} (call : Link) (f : String → Option α) :
    (onlyArgument call >>= fun arg ↦ reading (f arg)) =
      reading (match call.args with
        | [arg] => f arg
        | _ => none) := by
  by_cases hargs : ∃ arg, call.args = [arg]
  · obtain ⟨arg, harg⟩ := hargs
    rw [onlyArgument_of_args harg, harg]
    rfl
  · rw [onlyArgument_of_other (not_exists.mp hargs)]
    split
    next arg harg => exact absurd ⟨arg, harg⟩ hargs
    next => rfl

/-! ### Elements of expressions -/

/-- The inside of a literal, between its quotes. -/
def literalInside (literal : List Char) : Option (List Char) := do
  slice? literal 1 (← minus? (byteSize literal) 1)

/-- The inline locator of a chain that has the shape of one. -/
def locatorOfLinks : List Link → Reading Locator
  | [_, strategy] => do
      let literal := Chars.trim (← entry strategy.args 0).toList
      if isQuoted literal then
        let inside ← OptionT.lift (literalInside literal)
        return ⟨strategy.name, String.ofList (unescapeChars inside)⟩
      else failure
  | _ => failure

/-- The element of a chain, with arguments followed through `fuel` levels. -/
def elementWithin : Nat → List Link → Reading Element
  | 0, _ => OptionT.mk none
  | fuel + 1, links =>
      if isLocatorCall links then .located <$> locatorOfLinks links
      else do
        let find ← reading links.getLast?
        if find.isCall "findElement" then
          let arg ← onlyArgument find
          elementWithin fuel (← callChain (trim arg))
        else failure

/-- The element that a chain of links refers to. -/
def elementOfLinks (links : List Link) : Reading Element :=
  elementWithin (((links.flatMap Link.args).flatMap String.toList).length + 1) links

/-- The element that an expression refers to by an inline locator. -/
def parseElement (expr : String) : Reading Element := do
  elementWithin (expr.length + 1) (← callChain (trim expr))

theorem literalInside_eq {literal : List Char} (h : isQuoted literal = true) :
    literalInside literal = some (inner literal) := by
  obtain ⟨body, rfl⟩ := exists_of_isQuoted h
  have hquote : byteSize ['"'] = 1 := by decide
  have hsize : minus? (byteSize ('"' :: (body ++ ['"']))) 1 = some (1 + byteSize body) := by
    rw [minus?_eq_some_iff, ← List.singleton_append, byteSize_append, byteSize_append,
      hquote]
    omega
  have hslice := slice?_append ['"'] body ['"']
  rw [hquote] at hslice
  rw [literalInside, hsize]
  exact hslice.trans (by simp [Java.inner])

theorem locatorOfLinks_eq {links : List Link} (h : isLocatorCall links = true) :
    locatorOfLinks links = reading (locatorOfLinks? links) := by
  unfold isLocatorCall at h
  split at h
  next source strategy =>
    rw [Bool.and_eq_true, beq_iff_eq] at h
    obtain ⟨arg, harg⟩ := List.length_eq_one_iff.mp (beq_iff_eq.mp h.2)
    have hentry : entry strategy.args 0 = reading (some arg) :=
      entry_of_getElem? (by rw [harg]; rfl)
    rw [locatorOfLinks, locatorOfLinks?, hentry, harg, reading_some, pure_bind]
    dsimp only
    rw [List.headD_cons]
    split
    next hquoted =>
      rw [literalInside_eq hquoted]
      rfl
    next => rfl
  next => cases h

/-- No argument of a chain is longer than a number of characters. -/
def ArgsWithin (size : Nat) (links : List Link) : Prop :=
  ∀ link ∈ links, ∀ arg ∈ link.args, arg.length ≤ size

theorem ArgsWithin.mono {size larger : Nat} {links : List Link} (h : ArgsWithin size links)
    (hle : size ≤ larger) : ArgsWithin larger links :=
  fun link hlink arg harg ↦ (h link hlink arg harg).trans hle

theorem mem_of_mem_dropThis {links : List Link} {link : Link} (h : link ∈ dropThis links) :
    link ∈ links := by
  obtain ⟨n, hn⟩ := exists_replicate_dropThis links
  rw [hn]
  exact List.mem_append_right _ h

theorem exists_argsWithin_of_callChain? {expr : String} {links : List Link}
    (h : callChain? (trim expr) = some links) :
    ∃ size, size < expr.length ∧ ArgsWithin size links := by
  obtain ⟨all, htext, rfl⟩ := callChain?_eq_some_iff.mp h
  have htrim := length_trim_le expr.toList
  have hlength : expr.toList.length = expr.length := String.length_toList
  rw [trim, String.toList_ofList] at htext
  have hpos : 0 < (Chars.trim expr.toList).length := by
    have hall : 0 < all.length := by
      generalize Chars.trim expr.toList = cs at htext
      cases htext <;> exact Nat.succ_pos _
    exact hall.trans_le htext.length_le
  refine ⟨expr.length - 1, by omega, fun link hlink arg harg ↦ ?_⟩
  obtain ⟨args, hargs, hmem⟩ : ∃ args, link.args? = some args ∧ arg ∈ args := by
    unfold Link.args at harg
    cases hcall : link.args? with
    | none =>
      rw [hcall] at harg
      cases harg
    | some args => exact ⟨args, rfl, by rwa [hcall] at harg⟩
  have hshort := htext.length_arg_lt (mem_of_mem_dropThis hlink) hargs hmem
  omega

/-- A chain is followed in place as it is in the text, if the chain of its last argument is. -/
theorem elementWithin_succ {fuel : Nat} {links : List Link} (h : ArgsWithin fuel links)
    (hnext : ∀ {arg : String} {others : List Link}, arg.length ≤ fuel →
      callChain? (trim arg) = some others →
        elementWithin fuel others = reading (SuiteMigration.elementWithin fuel others)) :
    elementWithin (fuel + 1) links = reading (SuiteMigration.elementWithin (fuel + 1) links) := by
  rw [elementWithin, SuiteMigration.elementWithin]
  split
  next hlocator => rw [locatorOfLinks_eq hlocator, reading_map]
  next =>
    cases hlast : links.getLast? with
    | none => rfl
    | some find =>
      rw [reading_some, pure_bind]
      dsimp only
      split
      · by_cases hargs : ∃ arg, find.args = [arg]
        · obtain ⟨arg, harg⟩ := hargs
          have hshort : arg.length ≤ fuel :=
            h find (List.mem_of_getLast? hlast) arg (harg ▸ List.mem_singleton_self arg)
          rw [onlyArgument_of_args harg, harg, reading_some, pure_bind, callChain_eq]
          dsimp only
          cases hchain : callChain? (trim arg) with
          | none => rfl
          | some others => exact hnext hshort hchain
        · rw [onlyArgument_of_other (not_exists.mp hargs)]
          split
          next arg harg => exact absurd ⟨arg, harg⟩ hargs
          next => rfl
      · rfl

/-- Enough fuel follows the arguments to their end. -/
theorem elementWithin_eq {fuel : Nat} {links : List Link} (h : ArgsWithin fuel links) :
    elementWithin (fuel + 1) links = reading (SuiteMigration.elementWithin (fuel + 1) links) := by
  induction fuel generalizing links with
  | zero =>
    refine elementWithin_succ h fun harg hchain ↦ ?_
    obtain ⟨size, hsize, -⟩ := exists_argsWithin_of_callChain? hchain
    exact absurd (hsize.trans_le harg) (Nat.not_lt_zero size)
  | succ fuel ih =>
    refine elementWithin_succ h fun harg hchain ↦ ?_
    obtain ⟨size, hsize, hargs⟩ := exists_argsWithin_of_callChain? hchain
    exact ih (hargs.mono (Nat.le_of_lt_succ (hsize.trans_le harg)))

theorem elementOfLinks_eq (links : List Link) :
    elementOfLinks links = reading (elementOfLinks? links) := by
  refine elementWithin_eq fun link hlink arg harg ↦ ?_
  have hmem : arg ∈ links.flatMap Link.args := List.mem_flatMap.mpr ⟨link, hlink, harg⟩
  have hsub : List.Sublist arg.toList ((links.flatMap Link.args).flatMap String.toList) :=
    List.sublist_flatten_of_mem (List.mem_map_of_mem hmem)
  rw [← String.length_toList]
  exact hsub.length_le

theorem parseElement_eq (expr : String) : parseElement expr = reading (parseElement? expr) := by
  rw [parseElement, callChain_eq, parseElement?]
  cases hchain : callChain? (trim expr) with
  | none => rfl
  | some links =>
    obtain ⟨size, hsize, hargs⟩ := exists_argsWithin_of_callChain? hchain
    exact elementWithin_eq (hargs.mono hsize.le)

/-! ### Declared elements -/

/-- The arguments of an annotation of the form `key = value`, sorted by key. -/
def namedArgs (a : AnnotationUse) : Option (Assoc String) := do
  let args ← Java.InPlace.splitArguments a.args
  return args.foldl (fun pairs arg ↦
    match breakOn? "=" arg with
    | some (key, value) => Assoc.insert (trim key) (trim value) pairs
    | none => pairs) []

/-- The locator that the arguments of an annotation give. -/
def locatorOfArgs? (args : Assoc String) : Option Locator :=
  match args.lookup "how", args.lookup "using" with
  | some how, some using_ => (firstLiteral? using_).map fun value ↦ ⟨strategyOfHow how, value⟩
  | _, _ =>
      args.findSome? fun (key, value) ↦
        if key == "how" || key == "using" then none
        else (firstLiteral? value).map fun literal ↦ ⟨key, literal⟩

/-- The element that a field declares. -/
def elementOfField (f : Field) : Reading ElementDeclaration := do
  let name ← reading f.name?
  match f.annotations.find? fun a ↦ findAnnotations.contains a.name with
  | some a =>
      let args ← OptionT.lift (namedArgs a)
      return ⟨name, ← reading (locatorOfArgs? args)⟩
  | none =>
      let value ← reading f.initializer?
      match ← parseElement value with
      | .located locator => return ⟨name, locator⟩
      | .named _ => failure

/-- The elements that a class declares, in order. -/
def elementDeclarations (o : Outline) : Option (List ElementDeclaration) :=
  collect elementOfField o.fields

/-- The declared elements by name, sorted. -/
def elementNames (o : Outline) : Option (Assoc Locator) := do
  return (← elementDeclarations o).foldl (fun names d ↦ Assoc.insert d.name d.locator names) []

theorem namedArgs_eq (a : AnnotationUse) : namedArgs a = some a.namedArgs := by
  rw [namedArgs, Java.InPlace.splitArguments_eq]
  rfl

theorem elementOfField_eq (f : Field) : elementOfField f = reading (elementOfField? f) := by
  unfold elementOfField elementOfField?
  rw [reading_bind]
  refine bind_congr fun name ↦ ?_
  cases f.annotations.find? fun a ↦ findAnnotations.contains a.name with
  | some a =>
    dsimp only
    rw [namedArgs_eq, lift_some_bind_reading]
    exact (reading_bind (locatorOfAnnotation? a) _).symm
  | none =>
    dsimp only
    rw [reading_bind]
    refine bind_congr fun value ↦ ?_
    rw [parseElement_eq]
    cases parseElement? value with
    | none => rfl
    | some element => cases element <;> rfl

theorem elementDeclarations_eq (o : Outline) :
    elementDeclarations o = some (SuiteMigration.elementDeclarations o) :=
  collect_eq elementOfField_eq o.fields

theorem elementNames_eq (o : Outline) : elementNames o = some (SuiteMigration.elementNames o) := by
  rw [elementNames, elementDeclarations_eq]
  rfl

end SuiteMigration.InPlace
