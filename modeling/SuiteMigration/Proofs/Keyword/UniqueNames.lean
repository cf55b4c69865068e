import Mathlib.Data.List.Nodup
import Mathlib.Data.List.Perm.Subperm
import SuiteMigration.Proofs.Text.Case
import SuiteMigration.Resource.Context

/-!
Names that differ up to case. A name that repeats an earlier one gets a number, and the numbers from
two on are tried until the numbered name is free. The search comes to an end: a number is no letter,
so numbered names differ in lower case as their numbers do, and of more numbers than there are names
in use one is free. What is in use are the names that were given, numbers included, so no name that
is given later can be like them.
-/

set_option autoImplicit false
set_option relaxedAutoImplicit false

namespace SuiteMigration

open SuiteMigration.Text SuiteMigration.Robot

/-! ### Numbered names -/

theorem toList_numbered (name : String) (n : Nat) :
    (numbered name n).toList = name.toList ++ ' ' :: (toString n).toList := by
  change (name ++ " " ++ toString n).toList = _
  simp

theorem toList_toString (n : Nat) : (toString n).toList = Nat.toDigits 10 n := by
  simp [Nat.toString_eq_repr, Nat.repr]

/-- The number at the end of a name stays as it is in lower case. -/
theorem toLower_numbered (name : String) (n : Nat) :
    toLower (numbered name n) = numbered (toLower name) n := by
  have hdigits : lowerFrom [] (toString n).toList = (toString n).toList := by
    refine lowerFrom_eq_self (fun c hc ↦ ?_) []
    rw [toList_toString] at hc
    obtain ⟨_, hnine⟩ :=
      Char.isDigit_iff_toNat.mp (Nat.isDigit_of_mem_toDigits (by decide) (by decide) hc)
    exact Nat.lt_of_le_of_lt hnine (by decide)
  rw [← String.toList_inj, toList_numbered, toLower, toLower, String.toList_ofList,
    String.toList_ofList, toList_numbered, lowerFrom_append_space, hdigits]

theorem numbered_injective (name : String) {i j : Nat} (h : numbered name i = numbered name j) :
    i = j := by
  rw [← String.toList_inj, toList_numbered, toList_numbered, List.append_right_inj, List.cons.injEq,
    toList_toString, toList_toString] at h
  simpa using congrArg (fun digits ↦ Nat.ofDigitChars 10 digits 0) h.2

/-! ### The search for a number -/

/-- The search for a number: as long as the numbered name is in use, up to case, the next number is
tried. -/
inductive Search (used : List String) (name : String) : Nat → Nat → Prop
  | found {n : Nat} (h : toLower (numbered name n) ∉ used) : Search used name n n
  | next {n last : Nat} (h : toLower (numbered name n) ∈ used)
      (hrest : Search used name (n + 1) last) : Search used name n last

variable {used : List String} {name chosen : String} {first last : Nat}

theorem Search.le (h : Search used name first last) : first ≤ last := by
  induction h with
  | found => exact Nat.le_refl _
  | next _ _ ih => omega

theorem Search.notMem (h : Search used name first last) :
    toLower (numbered name last) ∉ used := by
  induction h with
  | found h => exact h
  | next _ _ ih => exact ih

/-- A search stops at the first number that is free. -/
theorem search_of_forall_lt (hle : first ≤ last) (hfree : toLower (numbered name last) ∉ used)
    (htaken : ∀ n, first ≤ n → n < last → toLower (numbered name n) ∈ used) :
    Search used name first last := by
  induction hle using Nat.decreasingInduction with
  | self => exact .found hfree
  | of_succ n hn ih =>
    refine .next (htaken n (Nat.le_refl n) hn) (ih fun k hk hlast ↦ ?_)
    exact htaken k (Nat.le_of_succ_le hk) hlast

/-- Of more numbers than there are names in use one is free. -/
theorem exists_free (used : List String) (name : String) (first : Nat) :
    ∃ n ≤ used.length, toLower (numbered name (first + n)) ∉ used := by
  by_contra hnone
  have hused : ∀ n ∈ List.range (used.length + 1), toLower (numbered name (first + n)) ∈ used := by
    intro n hn
    by_contra hfree
    exact hnone ⟨n, Nat.le_of_lt_succ (List.mem_range.mp hn), hfree⟩
  have hdistinct : ((List.range (used.length + 1)).map fun n ↦
      toLower (numbered name (first + n))).Nodup := by
    refine List.nodup_range.map fun i j hij ↦ ?_
    rw [toLower_numbered, toLower_numbered] at hij
    exact Nat.add_left_cancel (numbered_injective _ hij)
  have hlength := (hdistinct.subperm (List.forall_mem_map.mpr hused)).length_le
  rw [List.length_map, List.length_range] at hlength
  omega

/-- The search ends, whatever names are in use. -/
theorem exists_search (used : List String) (name : String) (first : Nat) :
    ∃ last, Search used name first last := by
  obtain ⟨bound, _, hbound⟩ := exists_free used name first
  induction bound generalizing first with
  | zero => exact ⟨first, .found hbound⟩
  | succ bound ih =>
    by_cases hfirst : toLower (numbered name first) ∈ used
    · obtain ⟨last, hlast⟩ := ih (first + 1) (by omega) (by rwa [Nat.add_right_comm])
      exact ⟨last, .next hfirst hlast⟩
    · exact ⟨first, .found hfirst⟩

/-- The fresh name is the one at which the search ends. -/
theorem freshName_eq (used : List String) (name : String) :
    ∃ n, Search used name 2 n ∧ freshName used name = numbered name n := by
  unfold freshName
  dsimp only
  split
  next i hfind =>
    obtain ⟨hfree, _, htaken⟩ := List.find?_range_eq_some.mp hfind
    refine ⟨i + 2, search_of_forall_lt (Nat.le_add_left 2 i) (by simpa using hfree) ?_, rfl⟩
    intro n hn hlast
    obtain ⟨j, rfl⟩ := Nat.exists_eq_add_of_le' hn
    simpa using htaken j (Nat.lt_of_add_lt_add_right hlast)
  next hfind =>
    obtain ⟨n, hn, hfree⟩ := exists_free used name 2
    have htaken := List.find?_eq_none.mp hfind n (List.mem_range.mpr (by omega))
    rw [Nat.add_comm] at hfree
    simp [hfree] at htaken

/-! ### Names given one after the other -/

/-- The name that is given for a name where others are in use: the name itself if it is free, or
else the name with the number at which the search ends. -/
def IsGiven (used : List String) (name chosen : String) : Prop :=
  (toLower name ∉ used ∧ chosen = name) ∨
    (toLower name ∈ used ∧ ∃ n, 2 ≤ n ∧ Search used name 2 n ∧ chosen = numbered name n)

theorem IsGiven.notMem (h : IsGiven used name chosen) : toLower chosen ∉ used := by
  obtain ⟨hfree, rfl⟩ | ⟨_, n, _, hsearch, rfl⟩ := h
  · exact hfree
  · exact hsearch.notMem

/-- Only which names are in use counts. -/
theorem Search.congr {others : List String} (hsame : ∀ s, s ∈ used ↔ s ∈ others)
    (h : Search used name first last) : Search others name first last := by
  induction h with
  | found h => exact .found (mt (hsame _).mpr h)
  | next h _ ih => exact .next ((hsame _).mp h) ih

theorem IsGiven.congr {others : List String} (hsame : ∀ s, s ∈ used ↔ s ∈ others)
    (h : IsGiven used name chosen) : IsGiven others name chosen := by
  obtain ⟨hfree, heq⟩ | ⟨htaken, n, hn, hsearch, heq⟩ := h
  · exact Or.inl ⟨mt (hsame _).mpr hfree, heq⟩
  · exact Or.inr ⟨(hsame _).mp htaken, n, hn, hsearch.congr hsame, heq⟩

theorem exists_uniqueNamesFrom_cons (used : List String) (name : String) (rest : List String) :
    ∃ chosen, IsGiven used name chosen ∧
      uniqueNamesFrom used (name :: rest) =
        chosen :: uniqueNamesFrom (toLower chosen :: used) rest := by
  refine ⟨_, ?_, rfl⟩
  split
  next htaken =>
    obtain ⟨n, hsearch, heq⟩ := freshName_eq used name
    exact Or.inr ⟨by simpa using htaken, n, hsearch.le, hsearch, heq⟩
  next hfree => exact Or.inl ⟨by simpa using hfree, rfl⟩

theorem length_uniqueNamesFrom (used names : List String) :
    (uniqueNamesFrom used names).length = names.length := by
  induction names generalizing used with
  | nil => rfl
  | cons name rest ih => rw [uniqueNamesFrom, List.length_cons, ih, List.length_cons]

/-- The names that are given differ from each other and from those in use, up to case. -/
theorem nodup_uniqueNamesFrom (used names : List String) :
    ((uniqueNamesFrom used names).map toLower).Nodup ∧
      ∀ chosen ∈ uniqueNamesFrom used names, toLower chosen ∉ used := by
  induction names generalizing used with
  | nil => exact ⟨List.nodup_nil, List.forall_mem_nil _⟩
  | cons name rest ih =>
    obtain ⟨chosen, hchosen, heq⟩ := exists_uniqueNamesFrom_cons used name rest
    obtain ⟨hnodup, hothers⟩ := ih (toLower chosen :: used)
    rw [heq]
    refine ⟨?_, List.forall_mem_cons.mpr ⟨hchosen.notMem, fun other hother hmem ↦ ?_⟩⟩
    · refine List.nodup_cons.mpr ⟨fun hmem ↦ ?_, hnodup⟩
      obtain ⟨other, hother, hlower⟩ := List.mem_map.mp hmem
      exact hothers other hother (hlower ▸ List.mem_cons_self)
    · exact hothers other hother (List.mem_cons_of_mem _ hmem)

/-- Every name is given where the names before it are in use. -/
theorem isGiven_of_getElem? {names : List String} {i : Nat} (hname : names[i]? = some name)
    (hchosen : (uniqueNamesFrom used names)[i]? = some chosen) :
    IsGiven (((uniqueNamesFrom used names).take i).map toLower ++ used) name chosen := by
  induction names generalizing used i with
  | nil => cases hname
  | cons head rest ih =>
    obtain ⟨first, hfirst, heq⟩ := exists_uniqueNamesFrom_cons used head rest
    rw [heq] at hchosen ⊢
    cases i with
    | zero =>
      rw [List.getElem?_cons_zero, Option.some.injEq] at hname hchosen
      subst hname hchosen
      exact hfirst
    | succ i =>
      rw [List.getElem?_cons_succ] at hname hchosen
      refine (ih hname hchosen).congr fun s ↦ ?_
      simp only [List.take_succ_cons, List.map_cons, List.cons_append, List.mem_append,
        List.mem_cons]
      tauto

/-- What a number at the end does not take from a name holds of the names made different. -/
theorem forall_mem_uniqueNamesFrom {p : String → Prop}
    (hnumbered : ∀ name n, p name → p (numbered name n)) {names : List String}
    (h : ∀ name ∈ names, p name) (used : List String) :
    ∀ name ∈ uniqueNamesFrom used names, p name := by
  induction names generalizing used with
  | nil => exact List.forall_mem_nil _
  | cons name rest ih =>
    obtain ⟨hname, hrest⟩ := List.forall_mem_cons.mp h
    obtain ⟨chosen, hchosen, heq⟩ := exists_uniqueNamesFrom_cons used name rest
    rw [heq]
    refine List.forall_mem_cons.mpr ⟨?_, ih hrest _⟩
    obtain ⟨_, rfl⟩ | ⟨_, n, _, _, rfl⟩ := hchosen
    · exact hname
    · exact hnumbered name n hname

/-! ### Blocks -/

/-- No two blocks have one name, up to case. -/
def NamesDiffer (blocks : List Block) : Prop :=
  (blocks.map fun b ↦ toLower b.name).Nodup

instance (blocks : List Block) : Decidable (NamesDiffer blocks) :=
  inferInstanceAs (Decidable (List.Nodup _))

theorem withUniqueNames_eq (blocks : List Block) :
    withUniqueNames blocks = (blocks.zip (uniqueNamesFrom [] (blocks.map Block.name))).map
      fun pair ↦ { pair.1 with name := pair.2 } := by
  rw [withUniqueNames, List.zip, List.map_zipWith]

theorem length_withUniqueNames (blocks : List Block) :
    (withUniqueNames blocks).length = blocks.length := by
  rw [withUniqueNames, List.length_zipWith, length_uniqueNamesFrom, List.length_map, Nat.min_self]

theorem map_name_withUniqueNames (blocks : List Block) :
    (withUniqueNames blocks).map Block.name = uniqueNamesFrom [] (blocks.map Block.name) := by
  rw [withUniqueNames_eq, List.map_map]
  exact List.map_snd_zip (by rw [length_uniqueNamesFrom, List.length_map])

/-- Only the names of blocks are made different, and nothing else of them. -/
theorem map_withUniqueNames {α : Type} {view : Block → α}
    (hview : ∀ (b : Block) (name : String), view { b with name } = view b) (blocks : List Block) :
    (withUniqueNames blocks).map view = blocks.map view := by
  have hfirst : (blocks.zip (uniqueNamesFrom [] (blocks.map Block.name))).map Prod.fst = blocks :=
    List.map_fst_zip (by rw [length_uniqueNamesFrom, List.length_map])
  conv_rhs => rw [← hfirst, List.map_map]
  rw [withUniqueNames_eq, List.map_map]
  exact List.map_congr_left fun pair _ ↦ hview pair.1 pair.2

theorem map_tail_withUniqueNames (blocks : List Block) :
    (withUniqueNames blocks).map (fun b ↦ b.lines.tail) = blocks.map fun b ↦ b.lines.tail :=
  map_withUniqueNames (fun _ _ ↦ rfl) blocks

theorem namesDiffer_withUniqueNames (blocks : List Block) :
    NamesDiffer (withUniqueNames blocks) := by
  have hnames := (nodup_uniqueNamesFrom [] (blocks.map Block.name)).1
  rw [← map_name_withUniqueNames, List.map_map] at hnames
  exact hnames

/-- A block keeps all but its name, which is given where the names of the blocks before it are in
use. -/
theorem isGiven_withUniqueNames {blocks : List Block} {i : Nat} {b named : Block}
    (hb : blocks[i]? = some b) (hnamed : (withUniqueNames blocks)[i]? = some named) :
    named = { b with name := named.name } ∧
      IsGiven (((withUniqueNames blocks).take i).map fun b ↦ toLower b.name) b.name named.name := by
  have hname : (uniqueNamesFrom [] (blocks.map Block.name))[i]? = some named.name := by
    rw [← map_name_withUniqueNames, List.getElem?_map, hnamed]
    rfl
  have hgiven := isGiven_of_getElem? (by rw [List.getElem?_map, hb]; rfl) hname
  rw [← map_name_withUniqueNames, ← List.map_take, List.map_map, List.append_nil] at hgiven
  refine ⟨?_, hgiven⟩
  rw [withUniqueNames, List.getElem?_zipWith, hb, hname] at hnamed
  rw [← Option.some.inj hnamed]

end SuiteMigration
