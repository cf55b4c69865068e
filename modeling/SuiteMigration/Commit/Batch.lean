import SuiteMigration.Path.Classification

/-!
Batches of files that are committed together, and the messages of their commits.
-/

set_option autoImplicit false
set_option relaxedAutoImplicit false

namespace SuiteMigration.Commit

/-- A file to be committed. -/
structure Item where
  path : String
  content : String
  role : Role
  /-- The source of a migrated file; shared files have none. -/
  source : Option String := none
  deriving DecidableEq, Repr

/-- Cuts a list into pieces of a size, the last of which may be shorter; `fuel` bounds their
number. -/
def chunksWithin {α : Type} (size : Nat) : Nat → List α → List (List α)
  | 0, _ => []
  | fuel + 1, items =>
      if items.isEmpty then []
      else items.take size :: chunksWithin size fuel (items.drop size)

def chunks {α : Type} (size : Nat) (items : List α) : List (List α) :=
  chunksWithin size items.length items

/-- Adds files to the last batch. -/
def addToLast {α : Type} (trailing : List α) : List (List α) → List (List α)
  | [] => [trailing]
  | [last] => [last ++ trailing]
  | batch :: rest => batch :: addToLast trailing rest

/-- Cuts items into batches; trailing files go with the last one. -/
def planBatches (items trailing : List Item) (batchSize : Nat) : List (List Item) :=
  let batches := chunks (max batchSize 1) items
  if trailing.isEmpty then batches else addToLast trailing batches

def summaryLine (s : Path.RoleSummary) : String :=
  s!"\n{s.role.plural}: {s.count} (" ++ String.intercalate ", " s.samples ++ ")"

/-- The message for a batch, counted from zero: its place among all batches and the number of its
files by role. -/
def message (index total : Nat) (items : List Item) : String :=
  let summaries := Path.summarizeRoles (items.map fun item ↦ (item.path, item.role))
  let plural := if items.length == 1 then "" else "s"
  s!"robomigrate: migrate batch {index + 1}/{total} ({items.length} file{plural})" ++
    (if summaries.isEmpty then "" else "\n") ++ String.join (summaries.map summaryLine)

end SuiteMigration.Commit
