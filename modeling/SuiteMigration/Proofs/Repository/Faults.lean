import SuiteMigration.Proofs.Assoc
import SuiteMigration.Repository.Faults
import SuiteMigration.Repository.Store

/-!
Scripts of faults. Taking a fault leaves the repository behind the faults alone. The reads of a path
meet the faults of that path one after another, whatever is read in between elsewhere.
-/

set_option autoImplicit false
set_option relaxedAutoImplicit false

namespace SuiteMigration.Repository

variable {R α : Type}

/-- What goes through behind the faults succeeds only if there was no fault. -/
theorem Faulty.guarded_ok {f next : Faulty R} {fault : Option Error}
    {operation : R → Except Error α × R} {a : α} (h : f.guarded fault operation = (.ok a, next)) :
    operation f.inner = (.ok a, next.inner) := by
  cases fault with
  | some e => cases h
  | none =>
    obtain ⟨hresult, rfl⟩ := Prod.mk.inj h
    exact Prod.ext hresult rfl

/-- What goes through matters only on the repository behind the faults. -/
theorem Faulty.guarded_congr {f : Faulty R} {fault : Option Error}
    {operation other : R → Except Error α × R} (h : operation f.inner = other f.inner) :
    f.guarded fault operation = f.guarded fault other := by
  cases fault with
  | some e => rfl
  | none => rw [Faulty.guarded, Faulty.guarded, Faulty.through, Faulty.through, h]

theorem Faulty.nextWrite_inner (f : Faulty R) : f.nextWrite.2.inner = f.inner := by
  unfold Faulty.nextWrite
  split <;> rfl

theorem Faulty.nextWrite_fst (f : Faulty R) : f.nextWrite.1 = f.faults.writes.head?.join := by
  unfold Faulty.nextWrite
  split
  next h => rw [h]; rfl
  next h => rw [h]; rfl

theorem Faulty.nextWrite_writes (f : Faulty R) :
    f.nextWrite.2.faults.writes = f.faults.writes.tail := by
  unfold Faulty.nextWrite
  split
  next h => rw [h]; rfl
  next h => rw [h]; rfl

theorem Faulty.nextRead_inner (f : Faulty R) (path : String) :
    (f.nextRead path).2.inner = f.inner := by
  unfold Faulty.nextRead
  split <;> rfl

theorem Faulty.nextListing_inner (f : Faulty R) : f.nextListing.2.inner = f.inner := by
  unfold Faulty.nextListing
  split <;> rfl

/-! ### Reads -/

/-- The faults that the next reads of a path meet; an entry without fault lets its read through. -/
def Faulty.queue (f : Faulty R) (path : String) : List (Option Error) :=
  (f.faults.reads.lookup path).getD []

theorem Faulty.nextRead_eq (f : Faulty R) (path : String) :
    f.nextRead path =
      match f.queue path with
      | fault :: rest =>
          (fault,
            { f with faults := { f.faults with reads := Assoc.insert path rest f.faults.reads } })
      | [] => (none, f) := by
  unfold Faulty.nextRead Faulty.queue
  cases f.faults.reads.lookup path with
  | none => rfl
  | some queue => cases queue <;> rfl

theorem Faulty.nextRead_fst (f : Faulty R) (path : String) :
    (f.nextRead path).1 = (f.queue path).head?.join := by
  rw [Faulty.nextRead_eq]
  cases f.queue path <;> rfl

theorem Faulty.queue_nextRead_self (f : Faulty R) (path : String) :
    (f.nextRead path).2.queue path = (f.queue path).tail := by
  rw [Faulty.nextRead_eq]
  cases hqueue : f.queue path with
  | nil => exact hqueue
  | cons fault rest =>
    dsimp only [Faulty.queue]
    rw [Assoc.lookup_insert_self]
    rfl

theorem Faulty.queue_nextRead_of_ne (f : Faulty R) {path other : String} (h : other ≠ path) :
    (f.nextRead path).2.queue other = f.queue other := by
  rw [Faulty.nextRead_eq]
  cases f.queue path with
  | nil => rfl
  | cons fault rest =>
    dsimp only [Faulty.queue]
    rw [Assoc.lookup_insert_of_ne h]

/-- What a read is answered with: the fault that it meets, or else the content behind the faults. -/
def scriptedAnswer (fault : Option Error) (content : Except Error String) : Except Error String :=
  match fault with
  | some e => .error e
  | none => content

/-- A store is never throttled. -/
theorem Store.isThrottling_of_readFile {s : Store} {path branch : String} {e : Error}
    (h : s.readFile path (some branch) = .error e) : e.isThrottling = false := by
  have hname : s.branchName (some branch) = .ok branch := rfl
  unfold Store.readFile at h
  simp only [hname, bind, Except.bind] at h
  split at h
  · cases h
  · obtain rfl := Except.error.inj h
    rfl

theorem Faulty.readFile_fst (f : Faulty Store) (path : String) (branch : Option String) :
    (Repository.readFile path branch f).1 =
      scriptedAnswer (f.queue path).head?.join (f.inner.readFile path branch) := by
  change ((f.nextRead path).2.guarded (f.nextRead path).1 (Repository.readFile path branch)).1 = _
  rw [← Faulty.nextRead_fst]
  cases (f.nextRead path).1 with
  | some e => rfl
  | none =>
    change (Repository.readFile path branch (f.nextRead path).2.inner).1 = _
    rw [Faulty.nextRead_inner]
    rfl

/-- A read takes the head of the queue of its path, and nothing else. -/
theorem Faulty.readFile_snd (f : Faulty Store) (path : String) (branch : Option String) :
    (Repository.readFile path branch f).2 = (f.nextRead path).2 := by
  change ((f.nextRead path).2.guarded (f.nextRead path).1 (Repository.readFile path branch)).2 = _
  cases (f.nextRead path).1 <;> rfl

end SuiteMigration.Repository
