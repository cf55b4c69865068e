import SuiteMigration.Commit.Batch
import SuiteMigration.Repository.Basic

/-!
Writing of batches. Batches are written one after the other; a batch that fails in passing is tried
once more after a pause, and a batch that fails does not keep later ones from being written.
-/

set_option autoImplicit false
set_option relaxedAutoImplicit false

namespace SuiteMigration.Commit

open SuiteMigration.Repository

structure Policy where
  batchSize : Nat := 10
  /-- Milliseconds before the second attempt. -/
  retryDelay : Nat := 5000
  deriving DecidableEq, Repr

structure Outcome where
  index : Nat
  items : List Item
  /-- The names of the commits. -/
  result : Except Error (List String)
  attempts : Nat
  /-- When the outcome was reached. -/
  time : Nat

def Outcome.isOk (o : Outcome) : Bool :=
  o.result.isOk

def Item.write (item : Item) : FileWrite :=
  ⟨item.path, item.content⟩

variable {R : Type} [Repository R]

/-- Writes files as one commit each, up to the first failure. -/
def writeEach (text branch : String) : List FileWrite → R → Except Error (List String) × R
  | [], repo => (.ok [], repo)
  | file :: rest, repo =>
      match Repository.writeFile file text branch repo with
      | (.error e, next) => (.error e, next)
      | (.ok id, next) =>
          let (ids, last) := writeEach text branch rest next
          (ids.map (id :: ·), last)

/-- Writes a batch as one commit where the repository can, and otherwise file by file. -/
def writeBatch (items : List Item) (text branch : String) (repo : R) :
    Except Error (List String) × R :=
  let files := items.map Item.write
  if Repository.writesMany repo then
    let (result, next) := Repository.writeFiles files text branch repo
    (result.map fun id ↦ [id], next)
  else writeEach text branch files repo

/-- Writes one batch with at most two attempts. -/
def commitBatch (policy : Policy) (branch : String) (index total : Nat) (items : List Item)
    (repo : R) (now : Nat) : Outcome × R :=
  let text := message index total items
  match writeBatch items text branch repo with
  | (.ok ids, next) => (⟨index, items, .ok ids, 1, now⟩, next)
  | (.error e, next) =>
      if e.isTransient then
        let (result, last) := writeBatch items text branch next
        (⟨index, items, result, 2, now + policy.retryDelay⟩, last)
      else (⟨index, items, .error e, 1, now⟩, next)

/-- Writes batches from a number on, until all are written or the writing is stopped after one. -/
def commitFrom (policy : Policy) (stops : Nat → Bool) (branch : String) (total : Nat) :
    Nat → List (List Item) → R → Nat → List Outcome × R × Nat
  | _, [], repo, now => ([], repo, now)
  | index, items :: rest, repo, now =>
      let (outcome, next) := commitBatch policy branch index total items repo now
      if stops index then ([outcome], next, outcome.time)
      else
        let (outcomes, last, time) :=
          commitFrom policy stops branch total (index + 1) rest next outcome.time
        (outcome :: outcomes, last, time)

/-- Writes batches in order: the outcomes, the repository and the time afterwards. -/
def commitBatches (policy : Policy) (stops : Nat → Bool) (branch : String)
    (batches : List (List Item)) (repo : R) (now : Nat) : List Outcome × R × Nat :=
  commitFrom policy stops branch batches.length 0 batches repo now

end SuiteMigration.Commit
