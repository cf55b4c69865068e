import SuiteMigration.Proofs.Reading.Completion
import SuiteMigration.Proofs.Run.Step
import SuiteMigration.Run.Execution

/-!
What the phases of a run leave alone. Reports, calls of the repository and the assistant do not
touch the results of the files and their counts; only reading, recording and settling do. These in
turn do not touch the repository, nor what any view shows of it.
-/

set_option autoImplicit false
set_option relaxedAutoImplicit false

namespace SuiteMigration.Run

open SuiteMigration.Repository

variable {R α : Type}

/-- The results of the files and their counts are the same. -/
def SameTable (s t : Session R) : Prop :=
  t.entries = s.entries ∧ t.summary = s.summary

instance : IsPreorder (Session R) SameTable where
  refl _ := ⟨rfl, rfl⟩
  trans _ _ _ hfirst hsecond := ⟨hsecond.1.trans hfirst.1, hsecond.2.trans hfirst.2⟩

theorem notify_sameTable (observer : Observer) (event : Event) :
    Along SameTable (notify observer event : Step R Unit) := by
  refine Along.get_bind fun s ↦ Along.set_bind ⟨rfl, rfl⟩ ?_
  split
  · exact Along.throw _
  · exact Along.pure _

theorem enter_sameTable (phase : Phase) (percent : Nat) :
    Along SameTable (enter phase percent : Step R Unit) :=
  Along.modify fun _ ↦ ⟨rfl, rfl⟩

theorem announce_sameTable (observer : Observer) (message : String) (phase : Phase)
    (percent : Nat) : Along SameTable (announce observer message phase percent : Step R Unit) :=
  (enter_sameTable phase percent).bind fun _ ↦
    Along.get_bind fun s ↦ notify_sameTable observer _ s

theorem access_sameTable (operation : R → Except Error α × R) :
    Along SameTable (access operation) :=
  Along.get_bind fun _ ↦ Along.set_bind ⟨rfl, rfl⟩ (Along.pure _)

theorem accessOr_sameTable (failure : Error → Failure) (operation : R → Except Error α × R) :
    Along SameTable (accessOr failure operation) := by
  refine (access_sameTable operation).bind fun result ↦ ?_
  cases result with
  | ok a => exact Along.pure a
  | error e => exact Along.throw _

theorem migrateFile_sameTable (engine : Engine) (file : DiscoveredFile) (content : String) :
    Along SameTable (migrateFile engine file content : Step R TransformedFile) :=
  Along.get_bind fun _ ↦ Along.set_bind ⟨rfl, rfl⟩ (Along.pure _)

variable [Repository R]

theorem readBack_sameTable (path branch : String) :
    Along SameTable (readBack path branch : Step R (Except Error String)) :=
  (Along.modify fun _ ↦ ⟨rfl, rfl⟩).bind fun _ ↦ access_sameTable _

theorem mergeExisting_sameTable (engine : Engine) (request : Request) (branch : String)
    (fresh : TransformedFile) :
    Along SameTable (mergeExisting engine request branch fresh : Step R TransformedFile) := by
  refine (readBack_sameTable _ _).bind fun result ↦ ?_
  cases result with
  | error e => exact Along.pure _
  | ok existing =>
    dsimp only
    split <;> exact Along.pure _

theorem sourceIndex_sameTable (engine : Engine) (request : Request) :
    Along SameTable (sourceIndex engine request : Step R SourceIndex) := by
  refine (access_sameTable _).bind fun result ↦ ?_
  cases result <;> exact Along.pure _

theorem regenerate_sameTable (engine : Engine) (source : DiscoveredFile) :
    Along SameTable (regenerate engine source : Step R (Option String)) := by
  refine (readBack_sameTable _ _).bind fun result ↦ ?_
  cases result with
  | error e => exact Along.pure _
  | ok content =>
    dsimp only
    split
    · exact Along.pure _
    · split
      · exact Along.throw _
      · exact Along.pure _

theorem transformFile_sameTable (engine : Engine) (request : Request) (branch : String)
    (sources : SourceIndex) (file : DiscoveredFile) (content : String) :
    Along SameTable
      (transformFile engine request branch sources file content : Step R TransformedFile) := by
  unfold transformFile
  split
  · split
    · exact (regenerate_sameTable engine _).bind fun _ ↦ Along.pure _
    · exact (Along.pure _).bind fun _ ↦ Along.pure _
  · exact migrateFile_sameTable engine file content
  · refine (migrateFile_sameTable engine file content).bind fun fresh ↦ ?_
    split
    · exact mergeExisting_sameTable engine request branch fresh
    · exact Along.pure fresh

theorem validateAccess_sameTable (observer : Observer) (request : Request) :
    Along SameTable (validateAccess observer request : Step R (List String)) := by
  refine (announce_sameTable _ _ _ _).bind fun _ ↦ (accessOr_sameTable _ _).bind fun branches ↦ ?_
  split
  · exact Along.pure _
  · exact Along.throw _

theorem prepareBranch_sameTable (settings : Settings) (request : Request)
    (branches : List String) :
    Along SameTable (prepareBranch settings request branches : Step R String) := by
  unfold prepareBranch
  extract_lets branch
  split
  · exact (accessOr_sameTable _ _).bind fun _ ↦
      (Along.modify fun _ ↦ ⟨rfl, rfl⟩).bind fun _ ↦ Along.pure _
  · exact (Along.modify fun _ ↦ ⟨rfl, rfl⟩).bind fun _ ↦ Along.pure _

theorem readPool_sameTable (observer : Observer) (policy : Reading.Policy)
    (files : List DiscoveredFile) :
    Along SameTable (readPool observer policy files : Step R (List Reading.Outcome)) :=
  Along.get_bind fun _ ↦ Along.set_bind ⟨rfl, rfl⟩
    ((Along.forM (fun _ ↦ notify_sameTable observer _) _).bind fun _ ↦ Along.pure _)

theorem writeBatches_sameTable (observer : Observer) (policy : Commit.Policy) (branch : String)
    (batches : List (List Commit.Item)) :
    Along SameTable (writeBatches observer policy branch batches : Step R (List Commit.Outcome)) :=
  Along.get_bind fun _ ↦ Along.set_bind ⟨rfl, rfl⟩
    ((Along.forM (fun _ ↦ notify_sameTable observer _) _).bind fun _ ↦ Along.pure _)

theorem requestPull_sameTable (observer : Observer) (request : Request) (branch : String) :
    Along SameTable (requestPull observer request branch : Step R Unit) := by
  refine Along.get_bind fun s ↦ ?_
  dsimp only
  split
  · refine Along.bind (announce_sameTable _ _ _ _) (fun _ ↦ ?_) s
    exact (accessOr_sameTable _ _).bind fun _ ↦ Along.modify fun _ ↦ ⟨rfl, rfl⟩
  · exact refl_of SameTable s

/-! ### Results -/

section Results

variable {rel : Session R → Session R → Prop} [IsPreorder (Session R) rel]
  (hresolve : ∀ path result, Along rel (resolve path result : Step R Unit))
include hresolve

omit [Repository R]

theorem settleDry_along (items : List Commit.Item) :
    Along rel (settleDry items : Step R Unit) := by
  induction items with
  | nil => exact Along.pure _
  | cons item rest ih =>
    unfold settleDry
    split
    · exact (hresolve _ _).bind fun _ ↦ ih
    · exact ih

/-- Settling the files of batches counts and resolves them. -/
theorem settleOutcomes_along
    (hcommitted : Along rel (count fun s ↦ { s with committed := s.committed + 1 } : Step R Unit))
    (hfailed : Along rel
      (count fun s ↦ { s with commitFailures := s.commitFailures + 1 } : Step R Unit))
    (outcomes : List Commit.Outcome) : Along rel (settleOutcomes outcomes : Step R Unit) := by
  have hitem (result : Except Error (List String)) (item : Commit.Item) :
      Along rel (settleItem result item : Step R Unit) := by
    unfold settleItem
    split
    · split
      · exact hcommitted.bind fun _ ↦ hresolve _ _
      · exact hfailed.bind fun _ ↦ hresolve _ _
    · exact Along.pure _
  have hitems (result : Except Error (List String)) (items : List Commit.Item) :
      Along rel (settleItems result items : Step R Unit) := by
    induction items with
    | nil => exact Along.pure _
    | cons item rest ih => exact (hitem result item).bind fun _ ↦ ih
  induction outcomes with
  | nil => exact Along.pure _
  | cons outcome rest ih => exact (hitems outcome.result outcome.items).bind fun _ ↦ ih

end Results

/-! ### Views of the repository -/

/-- What a view shows of the repository and the branch for the output are the same. -/
def SameView (view : R → α) (s t : Session R) : Prop :=
  view t.repo = view s.repo ∧ t.status.branch = s.status.branch

instance (view : R → α) : IsPreorder (Session R) (SameView view) where
  refl _ := ⟨rfl, rfl⟩
  trans _ _ _ hfirst hsecond := ⟨hsecond.1.trans hfirst.1, hsecond.2.trans hfirst.2⟩

section SameView

variable {view : R → α}

omit [Repository R]

theorem notify_sameView (observer : Observer) (event : Event) :
    Along (SameView view) (notify observer event : Step R Unit) := by
  refine Along.get_bind fun s ↦ Along.set_bind ⟨rfl, rfl⟩ ?_
  split
  · exact Along.throw _
  · exact Along.pure _

theorem enter_sameView (phase : Phase) (percent : Nat) :
    Along (SameView view) (enter phase percent : Step R Unit) :=
  Along.modify fun _ ↦ ⟨rfl, rfl⟩

theorem announce_sameView (observer : Observer) (message : String) (phase : Phase)
    (percent : Nat) : Along (SameView view) (announce observer message phase percent) :=
  (enter_sameView phase percent).bind fun _ ↦ Along.get_bind fun s ↦ notify_sameView observer _ s

theorem count_sameView (update : Summary → Summary) :
    Along (SameView view) (count update : Step R Unit) :=
  Along.modify fun _ ↦ ⟨rfl, rfl⟩

theorem resolve_sameView (path : String) (result : FileResult) :
    Along (SameView view) (resolve path result : Step R Unit) :=
  Along.modify fun _ ↦ ⟨rfl, rfl⟩

theorem accessOr_sameView {β : Type} (failure : Error → Failure)
    {operation : R → Except Error β × R} (h : ∀ r, view (operation r).2 = view r) :
    Along (SameView view) (accessOr failure operation) := by
  intro s
  rw [final, exec_accessOr]
  exact ⟨h s.repo, rfl⟩

theorem settleOutcomes_sameView (outcomes : List Commit.Outcome) :
    Along (SameView view) (settleOutcomes outcomes : Step R Unit) :=
  settleOutcomes_along resolve_sameView (count_sameView _) (count_sameView _) outcomes

theorem settleDry_sameView (items : List Commit.Item) :
    Along (SameView view) (settleDry items : Step R Unit) :=
  settleDry_along resolve_sameView items

theorem collectRead_sameView (outcomes : List Reading.Outcome) :
    Along (SameView view) (collectRead outcomes : Step R (List (DiscoveredFile × String))) := by
  induction outcomes with
  | nil => exact Along.pure _
  | cons outcome rest ih =>
    unfold collectRead
    split
    · exact ih.bind fun _ ↦ Along.pure _
    · exact (count_sameView _).bind fun _ ↦ (resolve_sameView _ _).bind fun _ ↦ ih

end SameView

theorem validateAccess_sameView {view : R → α}
    (h : ∀ r, view (Repository.listBranches r).2 = view r) (observer : Observer)
    (request : Request) :
    Along (SameView view) (validateAccess observer request : Step R (List String)) := by
  refine (announce_sameView _ _ _ _).bind fun _ ↦ (accessOr_sameView _ h).bind fun branches ↦ ?_
  split
  · exact Along.pure _
  · exact Along.throw _

theorem requestPull_sameView {view : R → α}
    (h : ∀ pull r, view (Repository.openPullRequest pull r).2 = view r) (observer : Observer)
    (request : Request) (branch : String) :
    Along (SameView view) (requestPull observer request branch : Step R Unit) := by
  refine Along.get_bind fun s ↦ ?_
  dsimp only
  split
  · refine Along.bind (announce_sameView _ _ _ _) (fun _ ↦ ?_) s
    exact (accessOr_sameView _ (h _)).bind fun _ ↦ Along.modify fun _ ↦ ⟨rfl, rfl⟩
  · exact refl_of (SameView view) s

/-- Reading a file and listing files do not change what a view shows. -/
structure ReadOnly (view : R → α) : Prop where
  readFile : ∀ path branch r, view (Repository.readFile path branch r).2 = view r
  listFiles : ∀ directory pattern branch r,
    view (Repository.listFiles directory pattern branch r).2 = view r

section ReadOnly

variable {view : R → α} (h : ReadOnly view)
include h

theorem ReadOnly.discover (request : Request) (repo : R) :
    view (discover request repo).2 = view repo := by
  have hsearch (found : Assoc Role) (searches : List Search) (r : R) :
      view (searchAll request found searches r).2 = view r := by
    induction searches generalizing found r with
    | nil => rfl
    | cons search rest ih =>
      have hlist := h.listFiles search.directory request.pattern (some request.readBranch) r
      unfold searchAll
      split
      next hfiles =>
        rw [hfiles] at hlist
        rw [ih, ← hlist]
      next hfiles =>
        rw [hfiles] at hlist
        exact hlist
  exact hsearch [] request.searches repo

theorem discoverFiles_sameView (observer : Observer) (request : Request) :
    Along (SameView view) (discoverFiles observer request : Step R (List DiscoveredFile)) :=
  (announce_sameView _ _ _ _).bind fun _ ↦ (accessOr_sameView _ (h.discover request)).bind
    fun _ ↦ (count_sameView _).bind fun _ ↦ (Along.modify fun _ ↦ ⟨rfl, rfl⟩).bind
      fun _ ↦ Along.pure _

theorem readFiles_sameView (observer : Observer) (policy : Reading.Policy)
    (files : List DiscoveredFile) :
    Along (SameView view)
      (readFiles observer policy files : Step R (List (DiscoveredFile × String))) := by
  have hpool : Along (SameView view)
      (readPool observer policy files : Step R (List Reading.Outcome)) :=
    Along.get_bind fun _ ↦ Along.set_bind ⟨Reading.view_readAll h.readFile _ _ _ _ _, rfl⟩
      ((Along.forM (fun _ ↦ notify_sameView observer _) _).bind fun _ ↦ Along.pure _)
  exact (announce_sameView _ _ _ _).bind fun _ ↦ hpool.bind fun outcomes ↦
    (enter_sameView _ _).bind fun _ ↦ collectRead_sameView outcomes

theorem readBack_sameView (path branch : String) :
    Along (SameView view) (readBack path branch : Step R (Except Error String)) :=
  (Along.modify fun _ ↦ ⟨rfl, rfl⟩).bind fun _ _ ↦ ⟨h.readFile _ _ _, rfl⟩

theorem regenerate_sameView (engine : Engine) (source : DiscoveredFile) :
    Along (SameView view) (regenerate engine source : Step R (Option String)) := by
  refine (readBack_sameView h _ _).bind fun result ↦ ?_
  split
  · exact Along.pure _
  · split
    · exact Along.pure _
    · split
      · exact Along.throw _
      · exact Along.pure _

theorem mergeExisting_sameView (engine : Engine) (request : Request) (branch : String)
    (fresh : TransformedFile) :
    Along (SameView view) (mergeExisting engine request branch fresh : Step R _) := by
  refine (readBack_sameView h _ _).bind fun result ↦ ?_
  split
  · exact Along.pure _
  · dsimp only
    split <;> exact Along.pure _

theorem transformFile_sameView (engine : Engine) (request : Request) (branch : String)
    (sources : SourceIndex) (file : DiscoveredFile) (content : String) :
    Along (SameView view)
      (transformFile engine request branch sources file content : Step R _) := by
  have hmigrate : Along (SameView view) (migrateFile engine file content : Step R _) :=
    Along.get_bind fun _ ↦ Along.set_bind ⟨rfl, rfl⟩ (Along.pure _)
  unfold transformFile
  split
  · dsimp only
    split
    · exact (regenerate_sameView h _ _).bind fun _ ↦ Along.pure _
    · exact (Along.pure _).bind fun _ ↦ Along.pure _
  · exact hmigrate
  · refine hmigrate.bind fun fresh ↦ ?_
    split
    · exact mergeExisting_sameView h _ _ _ _
    · exact Along.pure _

omit h in
omit [Repository R] in
theorem record_sameView (t : TransformedFile) :
    Along (SameView view) (record t : Step R (Option Commit.Item)) := by
  refine (count_sameView _).bind fun _ ↦ ?_
  split
  · exact (resolve_sameView _ _).bind fun _ ↦ Along.pure _
  · exact Along.pure _

theorem transformAll_sameView (observer : Observer) (engine : Engine) (request : Request)
    (branch : String) (loaded : List (DiscoveredFile × String)) :
    Along (SameView view) (transformAll observer engine request branch loaded) := by
  have hindex : Along (SameView view) (sourceIndex engine request : Step R SourceIndex) := by
    refine Along.bind (fun _ ↦ ⟨h.discover _ _, rfl⟩) fun result ↦ ?_
    split <;> exact Along.pure _
  have hfrom (index : SourceIndex) (total done : Nat) (files : List (DiscoveredFile × String)) :
      Along (SameView view)
        (transformFrom observer engine request branch index total done files) := by
    induction files generalizing done with
    | nil => exact Along.pure _
    | cons pair rest ih =>
      exact (transformFile_sameView h _ _ _ _ _ _).bind fun t ↦ (record_sameView t).bind fun _ ↦
        (notify_sameView _ _).bind fun _ ↦ (ih _).bind fun _ ↦ Along.pure _
  have hrest (index : SourceIndex) : Along (SameView view) (do
      let items ← transformFrom observer engine request branch index loaded.length 0 loaded
      enter .transforming 70
      return items : Step R (List Commit.Item)) :=
    (hfrom index _ _ _).bind fun _ ↦ (enter_sameView _ _).bind fun _ ↦ Along.pure _
  refine (announce_sameView _ _ _ _).bind fun _ ↦ ?_
  dsimp only
  split
  · exact hindex.bind hrest
  · exact (Along.pure _).bind hrest

end ReadOnly

omit [Repository R] in
theorem skeletonItems_sameView {view : R → α} (observer : Observer) (engine : Engine)
    (request : Request) (items : List Commit.Item) :
    Along (SameView view) (skeletonItems observer engine request items) := by
  unfold skeletonItems
  split
  · exact Along.pure _
  · refine (announce_sameView _ _ _ _).bind fun _ ↦ ?_
    split
    · exact Along.throw _
    · exact (count_sameView _).bind fun _ ↦ Along.pure _

end SuiteMigration.Run
