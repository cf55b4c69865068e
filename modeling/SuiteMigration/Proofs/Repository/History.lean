import Mathlib.Data.List.Induction
import Mathlib.Data.List.Nodup
import SuiteMigration.Proofs.Repository.Store
import SuiteMigration.Repository.Command
import SuiteMigration.Toml.Number

/-!
What a repository in memory holds after a whole history of calls. A branch has what was written to
it since it was made, and below that what its base had at that moment; a call that fails changes
nothing; and no two commits have the same name. The files of every branch stay in ascending order of
their paths, and so does every listing of them.
-/

set_option autoImplicit false
set_option relaxedAutoImplicit false

namespace SuiteMigration.Repository

open SuiteMigration.Text

/-! ### Histories -/

/-- The store after calls, one after another. -/
def Store.after (s : Store) (commands : List Command) : Store :=
  commands.foldl (fun store command ↦ (command.run store).2) s

/-- What the calls are answered with, in order. -/
def Store.replies (s : Store) : List Command → List (Except Error Reply)
  | [] => []
  | command :: rest => (command.run s).1 :: (command.run s).2.replies rest

/-- A call, and the store that it was made on. -/
structure Call where
  store : Store
  command : Command

/-- The calls of a history that succeeded, the latest first. -/
def Store.log (s : Store) : List Command → List Call
  | [] => []
  | command :: rest =>
      (command.run s).2.log rest ++ if (command.run s).1.isOk then [⟨s, command⟩] else []

/-- Whether a call makes or deletes a branch. -/
def Command.bounds (branch : String) : Command → Bool
  | .createBranch name _ => name == branch
  | .deleteBranch name => name == branch
  | _ => false

/-- The files that a call writes to a branch. -/
def Command.writesTo (branch : String) : Command → List FileWrite
  | .write file _ target => if target == branch then [file] else []
  | .writeMany files _ target => if target == branch then files else []
  | _ => []

/-- The content of a path on a branch right after the call that made or deleted the branch: that of
the base at that moment, or none. -/
def Call.handed (call : Call) (path : String) : Option String :=
  match call.command with
  | .createBranch _ base => call.store.file? base path
  | _ => none

/-- The content that the latest of some calls wrote to a path of a branch. -/
def latestWrite? (branch path : String) (calls : List Call) : Option String :=
  calls.findSome? fun call ↦ lastContent path (call.command.writesTo branch)

/-- The content of a path by a log of calls: what was last written to the branch since it was made
or deleted, or else what it was handed then. A branch that was neither made nor deleted started
with what it had in the first store. -/
def Store.recalled (start : Store) (log : List Call) (branch path : String) : Option String :=
  (latestWrite? branch path (log.takeWhile fun call ↦ !call.command.bounds branch)).or
    (match log.find? fun call ↦ call.command.bounds branch with
     | some call => call.handed path
     | none => start.file? branch path)

theorem Store.after_concat (s : Store) (commands : List Command) (command : Command) :
    s.after (commands ++ [command]) = (command.run (s.after commands)).2 := by
  rw [Store.after, List.foldl_append]
  rfl

theorem Store.log_concat (s : Store) (commands : List Command) (command : Command) :
    s.log (commands ++ [command]) =
      (if (command.run (s.after commands)).1.isOk then [⟨s.after commands, command⟩] else []) ++
        s.log commands := by
  induction commands generalizing s with
  | nil => exact (List.append_nil _).symm
  | cons first rest ih =>
    rw [List.cons_append, Store.log, ih, Store.log, List.append_assoc]
    rfl

theorem Store.recalled_cons_of_bounds {call : Call} {branch : String}
    (h : call.command.bounds branch = true) (start : Store) (log : List Call) (path : String) :
    start.recalled (call :: log) branch path = call.handed path := by
  simp [Store.recalled, latestWrite?, h]

theorem Store.recalled_cons_of_writes {call : Call} {branch : String}
    (h : call.command.bounds branch = false) (start : Store) (log : List Call) (path : String) :
    start.recalled (call :: log) branch path =
      (lastContent path (call.command.writesTo branch)).or (start.recalled log branch path) := by
  unfold Store.recalled latestWrite?
  rw [List.takeWhile_cons_of_pos (by simp [h]), List.find?_cons_of_neg (by simp [h]),
    List.findSome?_cons, ← Option.or_assoc]
  cases lastContent path (call.command.writesTo branch) <;> rfl

/-! ### One call -/

/-- What a call can do to a store: it fails, looks at the store, makes or deletes a branch, commits
files to a branch, or opens a pull request. -/
inductive Effect (s : Store) : Command → Except Error Reply → Store → Prop
  | failed (command : Command) (e : Error) : Effect s command (.error e) s
  | looked (command : Command) (reply : Reply) (hcommit : ∀ id, reply ≠ .commit id)
      (hbounds : ∀ branch, command.bounds branch = false)
      (hwrites : ∀ branch, command.writesTo branch = []) : Effect s command (.ok reply) s
  | created (name base : String) (tree : Tree) (hbase : s.Branch base tree) :
      Effect s (.createBranch name base) (.ok .done)
        { s with branches := Assoc.insert name tree s.branches }
  | deleted (name : String) :
      Effect s (.deleteBranch name) (.ok .done)
        { s with branches := Assoc.erase name s.branches }
  | committed (command : Command) (record : CommitRecord) (files : List FileWrite) (tree : Tree)
      (hid : record.id = commitId (s.commits.length + 1)) (htree : s.Branch record.branch tree)
      (hbounds : ∀ branch, command.bounds branch = false)
      (hwrites : ∀ branch,
        command.writesTo branch = if record.branch == branch then files else []) :
      Effect s command (.ok (.commit record.id))
        { s with
          branches := Assoc.insert record.branch (writeTree tree files) s.branches
          commits := s.commits ++ [record] }
  | requested (request : PullRequest) (url : String) :
      Effect s (.openPullRequest request) (.ok (.address url))
        { s with pullRequests := s.pullRequests ++ [request] }

/-- The effect of a call that may commit files. -/
theorem effect_of_commit {s : Store} {command : Command} {files : List FileWrite}
    {message target : String} (hbounds : ∀ branch, command.bounds branch = false)
    (hwrites : ∀ branch, command.writesTo branch = if target == branch then files else []) :
    Effect s command (replyWith .commit (keepOnError s (s.commit files message target))).1
      (replyWith .commit (keepOnError s (s.commit files message target))).2 := by
  unfold Store.commit
  cases htree : s.branches.lookup target with
  | none => exact .failed command _
  | some tree =>
    exact .committed command ⟨commitId (s.commits.length + 1), target, message, _⟩ files tree rfl
      htree hbounds hwrites

theorem Command.effect (command : Command) (s : Store) :
    Effect s command (command.run s).1 (command.run s).2 := by
  cases command with
  | listBranches => exact .looked _ _ nofun (fun _ ↦ rfl) fun _ ↦ rfl
  | list directory pattern branch =>
    change Effect s _ ((s.listFiles directory pattern branch).map Reply.files) s
    cases s.listFiles directory pattern branch with
    | error e => exact .failed _ e
    | ok found => exact .looked _ _ nofun (fun _ ↦ rfl) fun _ ↦ rfl
  | read path branch =>
    change Effect s _ ((s.readFile path branch).map Reply.text) s
    cases s.readFile path branch with
    | error e => exact .failed _ e
    | ok content => exact .looked _ _ nofun (fun _ ↦ rfl) fun _ ↦ rfl
  | «exists» path branch =>
    have hstore : (fileExists path branch s).2 = s := by
      unfold fileExists
      split <;> rename_i hread <;> exact (congrArg Prod.snd hread).symm
    change Effect s _ ((fileExists path branch s).1.map Reply.truth) (fileExists path branch s).2
    rw [hstore]
    cases (fileExists path branch s).1 with
    | error e => exact .failed _ e
    | ok found => exact .looked _ _ nofun (fun _ ↦ rfl) fun _ ↦ rfl
  | createBranch name base =>
    change Effect s _ (replyWith _ (keepOnError s (s.createBranch name base))).1
      (replyWith _ (keepOnError s (s.createBranch name base))).2
    unfold Store.createBranch
    split
    · exact .failed _ _
    · cases hbase : s.branches.lookup base with
      | none => exact .failed _ _
      | some tree => exact .created name base tree hbase
  | deleteBranch name =>
    change Effect s _ (replyWith _ (keepOnError s (s.deleteBranch name))).1
      (replyWith _ (keepOnError s (s.deleteBranch name))).2
    unfold Store.deleteBranch
    split
    · exact .deleted name
    · exact .failed _ _
  | write file message target => exact effect_of_commit (fun _ ↦ rfl) fun _ ↦ rfl
  | writeMany files message target =>
    change Effect s _ (replyWith _ (keepOnError s (s.writeFiles files message target))).1
      (replyWith _ (keepOnError s (s.writeFiles files message target))).2
    unfold Store.writeFiles
    split
    · exact effect_of_commit (fun _ ↦ rfl) fun _ ↦ rfl
    · exact .failed _ _
  | openPullRequest request =>
    change Effect s _ (replyWith _ (keepOnError s (s.openPullRequest request))).1
      (replyWith _ (keepOnError s (s.openPullRequest request))).2
    unfold Store.openPullRequest
    split
    · exact .requested request _
    · exact .failed _ _

theorem Store.file?_congr {s next : Store} {branch : String}
    (h : next.branches.lookup branch = s.branches.lookup branch) (path : String) :
    next.file? branch path = s.file? branch path := by
  rw [Store.file?, h, Store.file?]

namespace Effect

variable {s next : Store} {command : Command} {reply : Reply} {branch : String}

/-- A call that fails leaves the store as it was. -/
theorem of_error {e : Error} (h : Effect s command (.error e) next) : next = s := by
  cases h
  rfl

/-- A call that neither makes nor deletes a branch adds its own files to what was there. -/
theorem file?_of_writes (h : Effect s command (.ok reply) next)
    (hbounds : command.bounds branch = false) (path : String) :
    next.file? branch path =
      (lastContent path (command.writesTo branch)).or (s.file? branch path) := by
  cases h with
  | looked _ _ _ _ hwrites =>
    rw [hwrites]
    rfl
  | created name base tree =>
    have hother : branch ≠ name := Ne.symm (beq_eq_false_iff_ne.mp hbounds)
    exact Store.file?_congr (Assoc.lookup_insert_of_ne hother tree s.branches) path
  | deleted name =>
    have hother : branch ≠ name := Ne.symm (beq_eq_false_iff_ne.mp hbounds)
    exact Store.file?_congr (Assoc.lookup_erase_of_ne hother s.branches) path
  | committed _ record files tree _ htree _ hwrites =>
    rw [hwrites]
    by_cases htarget : record.branch = branch
    · subst htarget
      rw [if_pos (beq_self_eq_true _), htree.file? path, ← lookup_writeTree]
      have hbranch := Assoc.lookup_insert_self record.branch (writeTree tree files) s.branches
      rw [Store.file?, hbranch]
      rfl
    · rw [if_neg (by simpa using htarget)]
      exact Store.file?_congr (Assoc.lookup_insert_of_ne (Ne.symm htarget) _ s.branches) path
  | requested request url => rfl

/-- A call that makes or deletes a branch decides what is on it. -/
theorem file?_of_bounds (h : Effect s command (.ok reply) next)
    (hbounds : command.bounds branch = true) (path : String) :
    next.file? branch path = Call.handed ⟨s, command⟩ path := by
  cases h with
  | looked _ _ _ hother =>
    rw [hother] at hbounds
    cases hbounds
  | created name base tree hbase =>
    obtain rfl : name = branch := eq_of_beq hbounds
    rw [Store.file?, Assoc.lookup_insert_self]
    exact (hbase.file? path).symm
  | deleted name =>
    obtain rfl : name = branch := eq_of_beq hbounds
    rw [Store.file?, Assoc.lookup_erase_self]
    rfl
  | committed _ _ _ _ _ _ hother =>
    rw [hother] at hbounds
    cases hbounds
  | requested request url => cases hbounds

end Effect

/-! ### Contents -/

/-- A path holds what the log of the calls says. -/
theorem Store.file?_after (start : Store) (commands : List Command) (branch path : String) :
    (start.after commands).file? branch path =
      start.recalled (start.log commands) branch path := by
  induction commands using List.reverseRecOn with
  | nil => rfl
  | append_singleton commands command ih =>
    have heffect := command.effect (start.after commands)
    rw [Store.after_concat, Store.log_concat]
    generalize command.run (start.after commands) = result at heffect ⊢
    obtain ⟨answer, next⟩ := result
    cases answer with
    | error e =>
      -- neither the store nor the log has changed
      rw [heffect.of_error]
      exact ih
    | ok reply =>
      -- the call is now the latest of the log: it starts the branch anew, or it adds to it
      change next.file? branch path =
        start.recalled (⟨start.after commands, command⟩ :: start.log commands) branch path
      cases hbounds : command.bounds branch with
      | true =>
        rw [Store.recalled_cons_of_bounds hbounds]
        exact heffect.file?_of_bounds hbounds path
      | false =>
        rw [Store.recalled_cons_of_writes hbounds, ← ih]
        exact heffect.file?_of_writes hbounds path

/-! ### Names of commits -/

/-- The name of the commit that a call is answered with. -/
def commitOf? : Except Error Reply → Option String
  | .ok (.commit id) => some id
  | _ => none

theorem numeral_digitChar (digits : List Char) {d : Nat} (h : d < 16) :
    Toml.numeral 16 (digits ++ [Nat.digitChar d]) = 16 * Toml.numeral 16 digits + d := by
  have hdigit : ∀ d < 16, (Toml.hexDigit? (Nat.digitChar d)).getD 0 = d := by decide
  rw [Toml.numeral, List.foldl_append, List.foldl_cons, hdigit d h]
  rfl

theorem numeral_toDigits (n : Nat) : Toml.numeral 16 (Nat.toDigits 16 n) = n := by
  induction n using Nat.strongRecOn with
  | ind n ih =>
    by_cases hsmall : n < 16
    · rw [Nat.toDigits_of_lt_base hsmall]
      exact (numeral_digitChar [] hsmall).trans (Nat.zero_add n)
    · rw [Nat.toDigits_of_base_le (by decide) (Nat.le_of_not_lt hsmall),
        numeral_digitChar _ (Nat.mod_lt n (by decide)), ih (n / 16) (by omega)]
      exact Nat.div_add_mod n 16

/-- A number in hexadecimal is read back whatever the width. -/
theorem numeral_hexadecimal (width n : Nat) :
    Toml.numeral 16 (hexadecimal width n).toList = n := by
  have hzeros (k : Nat) : Toml.numeral 16 (List.replicate k '0') = 0 := by
    induction k with
    | zero => rfl
    | succ k ih => exact ih
  rw [hexadecimal, String.toList_ofList, Toml.numeral, List.foldl_append]
  change List.foldl _ (Toml.numeral 16 _) _ = n
  rw [hzeros]
  exact numeral_toDigits n

theorem commitId_injective : Function.Injective commitId := by
  intro m n h
  rw [commitId, commitId] at h
  rw [← numeral_hexadecimal 7 m, ← numeral_hexadecimal 7 n, h]

/-- A call either commits under the next number, or commits nothing. -/
theorem Effect.commits {s next : Store} {command : Command} {reply : Except Error Reply}
    (h : Effect s command reply next) :
    (∃ record, commitOf? reply = some record.id ∧ record.id = commitId (s.commits.length + 1) ∧
      next.commits = s.commits ++ [record]) ∨
      commitOf? reply = none ∧ next.commits = s.commits := by
  cases h with
  | failed => exact Or.inr ⟨rfl, rfl⟩
  | looked _ reply hcommit =>
    refine Or.inr ⟨?_, rfl⟩
    cases reply with
    | commit id => exact absurd rfl (hcommit id)
    | _ => rfl
  | created => exact Or.inr ⟨rfl, rfl⟩
  | deleted => exact Or.inr ⟨rfl, rfl⟩
  | committed _ record _ _ hid => exact Or.inl ⟨record, rfl, hid, rfl⟩
  | requested => exact Or.inr ⟨rfl, rfl⟩

/-- The names that a history gives to its commits. -/
def Store.commitIds (s : Store) (commands : List Command) : List String :=
  (s.replies commands).filterMap commitOf?

/-- The commits of a history are recorded in order and numbered on. -/
theorem Store.commitIds_eq (s : Store) (commands : List Command) :
    (s.after commands).commits.map CommitRecord.id =
        s.commits.map CommitRecord.id ++ s.commitIds commands ∧
      s.commitIds commands =
        (List.range' (s.commits.length + 1) (s.commitIds commands).length).map commitId := by
  induction commands generalizing s with
  | nil => exact ⟨(List.append_nil _).symm, rfl⟩
  | cons command rest ih =>
    have hafter : s.after (command :: rest) = (command.run s).2.after rest := rfl
    obtain ⟨hrecorded, hnumbered⟩ := ih (command.run s).2
    rcases (command.effect s).commits with ⟨record, hreply, hid, hcommits⟩ | ⟨hreply, hcommits⟩
    · have hids : s.commitIds (command :: rest) =
          record.id :: (command.run s).2.commitIds rest := List.filterMap_cons_some hreply
      rw [hafter, hrecorded, hids, hcommits]
      constructor
      · simp
      · rw [hcommits, List.length_append] at hnumbered
        rw [List.length_cons, List.range'_succ, List.map_cons, ← hid]
        exact congrArg (record.id :: ·) hnumbered
    · have hids : s.commitIds (command :: rest) = (command.run s).2.commitIds rest :=
        List.filterMap_cons_none hreply
      rw [hcommits] at hrecorded hnumbered
      rw [hafter, hids]
      exact ⟨hrecorded, hnumbered⟩

theorem Store.commitIds_nodup (s : Store) (commands : List Command) :
    (s.commitIds commands).Nodup := by
  rw [(s.commitIds_eq commands).2]
  exact List.Nodup.map commitId_injective (List.nodup_range' 1)

/-- After any history of calls, reading a path of a branch gives what was last written there since
the branch was made, or else what its base had there at that moment (or what the branch had at the
start), or else nothing is found. A call that fails changes nothing, and the commits, which are all
recorded, have names that differ. -/
theorem Store.history_kept (start : Store) (commands : List Command) :
    (∀ branch path,
      (start.after commands).readFile path (some branch) =
        match start.recalled (start.log commands) branch path with
        | some content => .ok content
        | none => .error ⟨.notFound, "'" ++ path ++ "' not found on '" ++ branch ++ "'"⟩) ∧
      (∀ command e, (command.run (start.after commands)).1 = .error e →
        start.after (commands ++ [command]) = start.after commands) ∧
      (start.after commands).commits.map CommitRecord.id =
        start.commits.map CommitRecord.id ++ start.commitIds commands ∧
      (start.commitIds commands).Nodup := by
  refine ⟨fun branch path ↦ ?_, fun command e herror ↦ ?_, (start.commitIds_eq commands).1,
    start.commitIds_nodup commands⟩
  · rw [← start.file?_after]
    change (match (start.after commands).file? branch path with
      | some content => pure content
      | none => throw _) = _
    cases (start.after commands).file? branch path <;> rfl
  · have heffect := command.effect (start.after commands)
    rw [herror] at heffect
    rw [start.after_concat]
    exact heffect.of_error

/-! ### Listings -/

/-- The files of every branch are in ascending order of their paths. -/
def Store.Sorted (s : Store) : Prop :=
  ∀ branch tree, s.Branch branch tree → Assoc.Ascending tree

theorem ascending_writeTree {tree : Tree} (h : Assoc.Ascending tree) (files : List FileWrite) :
    Assoc.Ascending (writeTree tree files) := by
  induction files generalizing tree with
  | nil => exact h
  | cons file rest ih => exact ih (h.insert file.path file.content)

theorem Store.Sorted.insert {s : Store} {tree : Tree} (h : s.Sorted) (htree : Assoc.Ascending tree)
    (name : String) : Store.Sorted { s with branches := Assoc.insert name tree s.branches } := by
  intro branch other hbranch
  by_cases hsame : branch = name
  · subst hsame
    have hself := Assoc.lookup_insert_self branch tree s.branches
    obtain rfl := Option.some.inj (hself.symm.trans hbranch)
    exact htree
  · exact h branch other ((Assoc.lookup_insert_of_ne hsame tree s.branches).symm.trans hbranch)

/-- No call disturbs the order of files. -/
theorem Effect.sorted {s next : Store} {command : Command} {reply : Except Error Reply}
    (h : Effect s command reply next) (hs : s.Sorted) : next.Sorted := by
  cases h with
  | failed => exact hs
  | looked => exact hs
  | created name base tree hbase => exact hs.insert (hs base tree hbase) name
  | deleted name =>
    intro branch tree hbranch
    by_cases hsame : branch = name
    · subst hsame
      have hnone := (Assoc.lookup_erase_self branch s.branches).symm.trans hbranch
      cases hnone
    · exact hs branch tree ((Assoc.lookup_erase_of_ne hsame s.branches).symm.trans hbranch)
  | committed _ record files tree _ htree =>
    exact hs.insert (ascending_writeTree (hs record.branch tree htree) files) record.branch
  | requested => exact hs

theorem ascending_ofList (files : List (String × String)) :
    Assoc.Ascending (Assoc.ofList files) := by
  have hfrom (tree : Tree) (h : Assoc.Ascending tree) : Assoc.Ascending
      (files.foldl (fun map file ↦ Assoc.insert file.1 file.2 map) tree) := by
    induction files generalizing tree with
    | nil => exact h
    | cons file rest ih => exact ih _ (h.insert file.1 file.2)
  exact hfrom [] Assoc.Ascending.nil

theorem Store.sorted_ofBranch (branch : String) (files : List (String × String))
    (multiFile : Bool) : (Store.ofBranch branch files multiFile).Sorted := by
  have hempty : Store.Sorted { branches := [], multiFile } := fun _ _ hbranch ↦ nomatch hbranch
  exact hempty.insert (ascending_ofList files) branch

/-- A repository in memory keeps its files in order, whatever calls it has had. -/
theorem Store.Sorted.after {s : Store} (h : s.Sorted) (commands : List Command) :
    (s.after commands).Sorted := by
  induction commands generalizing s with
  | nil => exact h
  | cons command rest ih => exact ih ((command.effect s).sorted h)

/-- A file in a listing. -/
def fileHandle (file : String × String) : FileHandle :=
  ⟨file.1, some (Text.byteSize file.2)⟩

/-- What a listing of a branch gives. -/
theorem Store.listFiles_eq {s : Store} {branch : Option String} {name : String} {tree : Tree}
    (hname : s.branchName branch = .ok name) (htree : s.Branch name tree)
    (directory patterns : String) :
    s.listFiles directory patterns branch =
      .ok ((tree.filter fun file ↦ Path.isUnder file.1 directory &&
        Path.matchesPattern (Path.fileName file.1) patterns).map fileHandle) := by
  have hlookup : s.branches.lookup name = some tree := htree
  simp only [Store.listFiles, hname, bind, Except.bind, hlookup]
  rfl

end SuiteMigration.Repository
