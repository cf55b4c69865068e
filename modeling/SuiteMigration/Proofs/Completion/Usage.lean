import Mathlib.Algebra.GroupWithZero.Nat
import Mathlib.Data.List.Forall2
import SuiteMigration.Proofs.Engine

/-!
Files that one engine migrates one after another with an assistant. An attempt that does not succeed
leaves the file to the generators and shows in the usage only, which has one record for each file
that was offered; the counts and the token totals are those of the records.
-/

set_option autoImplicit false
set_option relaxedAutoImplicit false

namespace SuiteMigration

open SuiteMigration.Text SuiteMigration.Completion

/-- Migrates files one after another: the results, and the assistant afterwards. -/
def Engine.migrateAll (e : Engine) :
    Option Assistant → List (DiscoveredFile × String) → List TransformedFile × Option Assistant
  | assistant, [] => ([], assistant)
  | assistant, (file, content) :: rest =>
      let (out, after, _) := e.migrate assistant file content
      let (others, last) := e.migrateAll after rest
      (out :: others, last)

/-- The result for a file without an assistant. -/
def Engine.unassisted (e : Engine) (source : DiscoveredFile × String) : TransformedFile :=
  (e.migrate none source.1 source.2).1

/-- Whether a file is offered to the assistant. Blank files, helper classes and all files of the
manual mode are not. -/
def Engine.offers (e : Engine) (source : DiscoveredFile × String) : Bool :=
  !isBlankText source.2 && e.offersRole source.1.role

/-- What the service answers to the next request of a script, within the time limit. -/
def Completion.nextResult (options : Options) (replies : List Reply) : Except Error Response :=
  (Assistant.new options replies).next.1

/-- What came of a file that was offered, and the record of it: the file has the text that the
service produced, or else it is as without an assistant. -/
structure Engine.Attempted (e : Engine) (result : Except Error Response)
    (source : DiscoveredFile × String) (out : TransformedFile) (record : Record) : Prop where
  record_eq : record = (judge source.1.path source.1.role result).2
  produced : ∀ text, (judge source.1.path source.1.role result).1 = some text →
    record.outcome = .produced ∧ out = e.adopt source.1 text
  fallback : (judge source.1.path source.1.role result).1 = none →
    record.outcome ≠ .produced ∧ out = e.unassisted source

/-- The results of files in order, and the records of those that were offered; each of these takes
the next reply of the script. -/
inductive Engine.Accounted (e : Engine) (options : Options) : List Reply →
    List (DiscoveredFile × String) → List TransformedFile → List Record → Prop
  | nil {replies} : Engine.Accounted e options replies [] [] []
  | skipped {replies source sources outs records} (hoffers : e.offers source = false)
      (hrest : Engine.Accounted e options replies sources outs records) :
      Engine.Accounted e options replies (source :: sources) (e.unassisted source :: outs) records
  | offered {replies source sources out outs record records} (hoffers : e.offers source = true)
      (hattempt : e.Attempted (nextResult options replies) source out record)
      (hrest : Engine.Accounted e options replies.tail sources outs records) :
      Engine.Accounted e options replies (source :: sources) (out :: outs) (record :: records)

/-! ### Usage -/

/-- The totals of a usage are those of its records. -/
structure Completion.Usage.Balanced (u : Usage) : Prop where
  promptTokens : u.promptTokens = (u.records.map Record.promptTokens).sum
  completionTokens : u.completionTokens = (u.records.map Record.completionTokens).sum

theorem Completion.Usage.Balanced.add {u : Usage} (h : u.Balanced) (record : Record) :
    (u.add record).Balanced := by
  constructor
  · simp [Usage.add, h.promptTokens]
  · simp [Usage.add, h.completionTokens]

theorem Completion.Usage.produced_add_fallbacks (u : Usage) :
    u.produced + u.fallbacks = u.records.length :=
  Nat.add_sub_cancel' (List.length_filter_le _ _)

/-! ### One file -/

theorem Engine.unassisted_strategy (e : Engine) (source : DiscoveredFile × String) :
    (e.unassisted source).strategy ≠ .ai := by
  intro hai
  have hgenerated := e.migrateAlone_isGenerated source.1 source.2
  rw [show (e.migrateAlone source.1 source.2).strategy = .ai from hai] at hgenerated
  cases hgenerated

theorem Completion.judge_about (path : String) (role : Role) (result : Except Error Response) :
    (judge path role result).2.path = path ∧ (judge path role result).2.role = role := by
  cases result with
  | error e => exact ⟨rfl, rfl⟩
  | ok response =>
    unfold judge
    dsimp only
    split <;> exact ⟨rfl, rfl⟩

/-- The record tells of success exactly if there is a text. -/
theorem Completion.judge_outcome (path : String) (role : Role) (result : Except Error Response) :
    (judge path role result).2.outcome = .produced ↔ (judge path role result).1.isSome := by
  cases result with
  | error e => exact ⟨nofun, nofun⟩
  | ok response =>
    unfold judge
    dsimp only
    split
    · exact ⟨fun _ ↦ rfl, fun _ ↦ rfl⟩
    · exact ⟨nofun, nofun⟩

section Attempted

variable {e : Engine} {result : Except Error Response} {source : DiscoveredFile × String}
  {out : TransformedFile} {record : Record}

theorem Engine.Attempted.about (h : e.Attempted result source out record) :
    (record.path, record.role) = (source.1.path, source.1.role) := by
  obtain ⟨hpath, hrole⟩ := judge_about source.1.path source.1.role result
  rw [h.record_eq, hpath, hrole]

theorem Engine.Attempted.cases (h : e.Attempted result source out record) :
    record.outcome = .produced ∧ out.strategy = .ai ∨
      record.outcome ≠ .produced ∧ out = e.unassisted source := by
  cases htext : (judge source.1.path source.1.role result).1 with
  | some text =>
    obtain ⟨hproduced, rfl⟩ := h.produced text htext
    exact Or.inl ⟨hproduced, rfl⟩
  | none => exact Or.inr (h.fallback htext)

end Attempted

theorem Engine.migrate_of_not_offers {e : Engine} {source : DiscoveredFile × String}
    (h : e.offers source = false) (a : Assistant) :
    e.migrate (some a) source.1 source.2 = (e.unassisted source, some a, 0) := by
  have hskipped : (isBlankText source.2 || !e.offersRole source.1.role) = true := by
    rw [← Bool.not_not (isBlankText source.2), ← Bool.not_and]
    exact congrArg Bool.not h
  unfold Engine.migrate
  dsimp only
  rw [if_pos hskipped]
  rfl

/-- A file that is offered takes one reply and adds one record to the usage. -/
theorem Engine.migrate_of_offers {e : Engine} {source : DiscoveredFile × String}
    (h : e.offers source = true) (a : Assistant) :
    ∃ out record elapsed,
      e.migrate (some a) source.1 source.2 =
        (out, some { a with replies := a.replies.tail, usage := a.usage.add record }, elapsed) ∧
      e.Attempted (nextResult a.options a.replies) source out record := by
  have hoffered : ¬ (isBlankText source.2 || !e.offersRole source.1.role) = true := by
    simpa [Engine.offers] using h
  have hresult : nextResult a.options a.replies = a.next.1 := rfl
  have houtcome := judge_outcome source.1.path source.1.role a.next.1
  rw [hresult]
  unfold Engine.migrate Assistant.offer
  dsimp only
  rw [if_neg hoffered]
  cases htext : (judge source.1.path source.1.role a.next.1).1 with
  | some text =>
    rw [htext] at houtcome
    refine ⟨e.adopt source.1 text, _, _, rfl, rfl, fun other hother ↦ ?_, fun hnone ↦ ?_⟩
    · obtain rfl : text = other := Option.some.inj (htext.symm.trans hother)
      exact ⟨houtcome.mpr rfl, rfl⟩
    · exact absurd (htext.symm.trans hnone) nofun
  | none =>
    rw [htext] at houtcome
    refine ⟨e.unassisted source, _, _, rfl, rfl, fun other hother ↦ ?_, fun _ ↦ ?_⟩
    · exact absurd (htext.symm.trans hother) nofun
    · exact ⟨fun hproduced ↦ absurd (houtcome.mp hproduced) nofun, rfl⟩

/-! ### Many files -/

theorem Engine.migrateAll_none (e : Engine) (sources : List (DiscoveredFile × String)) :
    e.migrateAll none sources = (sources.map e.unassisted, none) := by
  induction sources with
  | nil => rfl
  | cons source rest ih =>
    unfold Engine.migrateAll
    dsimp only [Engine.migrate]
    rw [ih]
    rfl

/-- What a sequence of files adds to the usage of an assistant. -/
theorem Engine.migrateAll_some (e : Engine) (sources : List (DiscoveredFile × String))
    (a : Assistant) (ha : a.usage.Balanced) :
    ∃ last records, (e.migrateAll (some a) sources).2 = some last ∧
      last.usage.records = a.usage.records ++ records ∧ last.usage.Balanced ∧
      e.Accounted a.options a.replies sources (e.migrateAll (some a) sources).1 records := by
  induction sources generalizing a with
  | nil => exact ⟨a, [], rfl, (List.append_nil _).symm, ha, .nil⟩
  | cons source rest ih =>
    unfold Engine.migrateAll
    dsimp only
    cases hoffers : e.offers source with
    | false =>
      obtain ⟨last, records, hlast, hrecords, hbalanced, hrest⟩ := ih a ha
      rw [Engine.migrate_of_not_offers hoffers]
      exact ⟨last, records, hlast, hrecords, hbalanced, .skipped hoffers hrest⟩
    | true =>
      obtain ⟨out, record, elapsed, hmigrate, hattempt⟩ := Engine.migrate_of_offers hoffers a
      obtain ⟨last, records, hlast, hrecords, hbalanced, hrest⟩ :=
        ih { a with replies := a.replies.tail, usage := a.usage.add record } (ha.add record)
      rw [hmigrate]
      refine ⟨last, record :: records, hlast, ?_, hbalanced, .offered hoffers hattempt hrest⟩
      rw [hrecords, Usage.add, List.append_assoc]
      rfl

namespace Engine.Accounted

variable {e : Engine} {options : Options} {replies : List Reply}
  {sources : List (DiscoveredFile × String)} {outs : List TransformedFile} {records : List Record}

/-- The records are about the files that were offered, in order. -/
theorem records_eq (h : e.Accounted options replies sources outs records) :
    records.map (fun record ↦ (record.path, record.role)) =
      (sources.filter e.offers).map fun source ↦ (source.1.path, source.1.role) := by
  induction h with
  | nil => rfl
  | skipped hoffers hrest ih => rw [ih, List.filter_cons_of_neg (by simp [hoffers])]
  | offered hoffers hattempt hrest ih =>
    rw [List.filter_cons_of_pos hoffers, List.map_cons, List.map_cons, ih, hattempt.about]

/-- As many records tell of success as files have their content from the assistant. -/
theorem produced_eq (h : e.Accounted options replies sources outs records) :
    (records.filter fun record ↦ record.outcome == .produced).length =
      (outs.filter fun out ↦ out.strategy == .ai).length := by
  induction h with
  | nil => rfl
  | @skipped _ source _ _ _ hoffers hrest ih =>
    rw [ih, List.filter_cons_of_neg (by simpa using e.unassisted_strategy source)]
  | @offered _ source _ _ _ _ _ hoffers hattempt hrest ih =>
    obtain ⟨hproduced, hai⟩ | ⟨hfailed, rfl⟩ := hattempt.cases
    · rw [List.filter_cons_of_pos (by simpa using hproduced),
        List.filter_cons_of_pos (by simpa using hai), List.length_cons, List.length_cons, ih]
    · rw [List.filter_cons_of_neg (by simpa using hfailed),
        List.filter_cons_of_neg (by simpa using e.unassisted_strategy source), ih]

/-- A file that the assistant did not produce is as it would be without one. -/
theorem unassisted_or_ai (h : e.Accounted options replies sources outs records) :
    List.Forall₂ (fun out alone ↦ out.strategy = .ai ∨ out = alone) outs
      (sources.map e.unassisted) := by
  induction h with
  | nil => exact .nil
  | skipped hoffers hrest ih => exact .cons (Or.inr rfl) ih
  | offered hoffers hattempt hrest ih =>
    exact .cons (hattempt.cases.imp And.right And.right) ih

end Engine.Accounted

/-- Over any files and any script of replies, the files that were not offered and those whose
attempt did not succeed come out as they do without an assistant. What is left of the attempts is
the usage: one record for each file that was offered, in order, with the counts and totals of the
records. -/
theorem Engine.assistance_accounted (e : Engine) (options : Options) (replies : List Reply)
    (sources : List (DiscoveredFile × String)) :
    let run := e.migrateAll (some (.new options replies)) sources
    let usage := (run.2.map Assistant.usage).getD {}
    e.Accounted options replies sources run.1 usage.records ∧
      List.Forall₂ (fun out alone ↦ out.strategy = .ai ∨ out = alone) run.1
        (e.migrateAll none sources).1 ∧
      usage.records.map (fun record ↦ (record.path, record.role)) =
        (sources.filter e.offers).map (fun source ↦ (source.1.path, source.1.role)) ∧
      usage.produced + usage.fallbacks = usage.records.length ∧
      usage.produced = (run.1.filter fun out ↦ out.strategy == .ai).length ∧
      usage.promptTokens = (usage.records.map Record.promptTokens).sum ∧
      usage.completionTokens = (usage.records.map Record.completionTokens).sum := by
  intro run usage
  obtain ⟨last, records, hlast, hrecords, hbalanced, haccounted⟩ :=
    e.migrateAll_some sources (.new options replies) ⟨rfl, rfl⟩
  have husage : usage = last.usage := by
    change (run.2.map Assistant.usage).getD {} = _
    rw [hlast]
    rfl
  rw [husage, e.migrateAll_none]
  obtain rfl : last.usage.records = records := hrecords
  exact ⟨haccounted, haccounted.unassisted_or_ai, haccounted.records_eq,
    last.usage.produced_add_fallbacks, haccounted.produced_eq, hbalanced.promptTokens,
    hbalanced.completionTokens⟩

end SuiteMigration
