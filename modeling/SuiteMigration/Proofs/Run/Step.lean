import Mathlib.Order.Defs.Unbundled
import SuiteMigration.Run.Session

/-!
How steps compose. `Yields` says that a step gives a value and leaves a session; `Along` says that
whatever way a step ends, the session it leaves is related to the one it found; `Beside` says that
two steps end alike: both give a value, or both stop. All are derived for a `do` block from what
holds of its parts, so no phase of a run has to be opened twice, and runs which differ in some of
their phases are compared phase by phase.
-/

set_option autoImplicit false
set_option relaxedAutoImplicit false

namespace SuiteMigration.Run

variable {R α β : Type}

/-- How a step ends, and the session that it leaves. -/
def exec (m : Step R α) (s : Session R) : Except Stop α × Session R :=
  m.run s

/-- The session that a step leaves, whether it gives a value or stops. -/
def final (m : Step R α) (s : Session R) : Session R :=
  (exec m s).2

@[simp] theorem exec_pure (a : α) (s : Session R) : exec (pure a) s = (.ok a, s) := rfl

@[simp] theorem exec_throw (stop : Stop) (s : Session R) :
    exec (throw stop : Step R α) s = (.error stop, s) := rfl

@[simp] theorem exec_get (s : Session R) : exec get s = (.ok s, s) := rfl

@[simp] theorem exec_set (s t : Session R) : exec (set t) s = (.ok ⟨⟩, t) := rfl

@[simp] theorem exec_modify (f : Session R → Session R) (s : Session R) :
    exec (modify f) s = (.ok ⟨⟩, f s) := rfl

theorem exec_bind (m : Step R α) (f : α → Step R β) (s : Session R) :
    exec (m >>= f) s =
      match exec m s with
      | (.ok a, next) => exec (f a) next
      | (.error stop, next) => (.error stop, next) := by
  change ExceptT.bindCont f (exec m s).1 (exec m s).2 = _
  rcases exec m s with ⟨_ | a, next⟩ <;> rfl

@[simp] theorem exec_notify (observer : Observer) (event : Event) (s : Session R) :
    exec (notify observer event) s =
      (match observer s.events.length event with
        | some message => .error (.crash message)
        | none => .ok (),
        { s with events := s.events ++ [event] }) := by
  simp only [notify, exec_bind, exec_get, exec_set]
  cases observer s.events.length event <;> rfl

@[simp] theorem exec_enter (phase : Phase) (percent : Nat) (s : Session R) :
    exec (enter phase percent) s = (.ok (), { s with status := s.status.enter phase percent }) :=
  rfl

@[simp] theorem exec_announce (observer : Observer) (message : String) (phase : Phase)
    (percent : Nat) (s : Session R) :
    exec (announce observer message phase percent) s =
      exec (notify observer ⟨message, phase, min percent 100⟩)
        { s with status := s.status.enter phase percent } :=
  rfl

@[simp] theorem exec_access (operation : R → Except Repository.Error α × R) (s : Session R) :
    exec (access operation) s =
      (.ok (operation s.repo).1, { s with repo := (operation s.repo).2 }) :=
  rfl

@[simp] theorem exec_accessOr (failure : Repository.Error → Failure)
    (operation : R → Except Repository.Error α × R) (s : Session R) :
    exec (accessOr failure operation) s =
      (match (operation s.repo).1 with
        | .ok a => .ok a
        | .error e => .error (.failure (failure e)),
        { s with repo := (operation s.repo).2 }) := by
  simp only [accessOr, exec_bind, exec_access]
  cases (operation s.repo).1 <;> rfl

@[simp] theorem exec_resolve (path : String) (result : FileResult) (s : Session R) :
    exec (resolve path result) s =
      (.ok (), { s with entries := s.entries.map (Entry.resolve path result) }) :=
  rfl

@[simp] theorem exec_count (update : Summary → Summary) (s : Session R) :
    exec (count update) s = (.ok (), { s with summary := update s.summary }) :=
  rfl

/-! ### Values -/

/-- A step gives a value and leaves a session. -/
def Yields (m : Step R α) (s : Session R) (a : α) (next : Session R) : Prop :=
  exec m s = (.ok a, next)

theorem Yields.final_eq {m : Step R α} {s next : Session R} {a : α} (h : Yields m s a next) :
    final m s = next :=
  congrArg Prod.snd h

@[simp] theorem yields_pure {s next : Session R} {a b : α} :
    Yields (pure a) s b next ↔ a = b ∧ s = next := by
  simp [Yields]

@[simp] theorem yields_throw {s next : Session R} {stop : Stop} {a : α} :
    ¬ Yields (throw stop) s a next := by
  simp [Yields]

@[simp] theorem yields_get {s a next : Session R} :
    Yields get s a next ↔ s = a ∧ s = next := by
  simp [Yields]

@[simp] theorem yields_set {s t next : Session R} {a : PUnit} :
    Yields (set t) s a next ↔ t = next := by
  simp [Yields]

@[simp] theorem yields_modify {f : Session R → Session R} {s next : Session R} {a : PUnit} :
    Yields (modify f) s a next ↔ f s = next := by
  simp [Yields]

@[simp] theorem yields_bind {m : Step R α} {f : α → Step R β} {s last : Session R} {b : β} :
    Yields (m >>= f) s b last ↔ ∃ a next, Yields m s a next ∧ Yields (f a) next b last := by
  simp only [Yields, exec_bind]
  rcases exec m s with ⟨_ | a, next⟩
  · simp
  · simp only [Prod.mk.injEq, Except.ok.injEq]
    constructor
    · exact fun h ↦ ⟨a, next, ⟨rfl, rfl⟩, h⟩
    · rintro ⟨_, _, ⟨rfl, rfl⟩, h⟩
      exact h

@[simp] theorem yields_notify {observer : Observer} {event : Event} {s next : Session R}
    {u : Unit} : Yields (notify observer event) s u next ↔
      observer s.events.length event = none ∧ { s with events := s.events ++ [event] } = next := by
  rw [Yields, exec_notify]
  cases observer s.events.length event <;> simp

@[simp] theorem yields_announce {observer : Observer} {message : String} {phase : Phase}
    {percent : Nat} {s next : Session R} {u : Unit} :
    Yields (announce observer message phase percent) s u next ↔
      observer s.events.length ⟨message, phase, min percent 100⟩ = none ∧
        { s with
          status := s.status.enter phase percent
          events := s.events ++ [⟨message, phase, min percent 100⟩] } = next := by
  rw [Yields, exec_announce]
  exact yields_notify

@[simp] theorem yields_accessOr {failure : Repository.Error → Failure}
    {operation : R → Except Repository.Error α × R} {s next : Session R} {a : α} :
    Yields (accessOr failure operation) s a next ↔
      (operation s.repo).1 = .ok a ∧ { s with repo := (operation s.repo).2 } = next := by
  rw [Yields, exec_accessOr]
  cases (operation s.repo).1 <;> simp

@[simp] theorem yields_enter {phase : Phase} {percent : Nat} {s next : Session R} {u : Unit} :
    Yields (enter phase percent) s u next ↔
      { s with status := s.status.enter phase percent } = next := by
  simp [Yields]

@[simp] theorem yields_resolve {path : String} {result : FileResult} {s next : Session R}
    {u : Unit} : Yields (resolve path result) s u next ↔
      { s with entries := s.entries.map (Entry.resolve path result) } = next := by
  simp [Yields]

@[simp] theorem yields_count {update : Summary → Summary} {s next : Session R} {u : Unit} :
    Yields (count update) s u next ↔ { s with summary := update s.summary } = next := by
  simp [Yields]

/-- A series of reports goes on to its end if the observer crashes at none of them. -/
theorem yields_forM_notify {observer : Observer} {event : α → Event} {list : List α}
    {s next : Session R} {u : PUnit} :
    Yields (list.forM fun a ↦ notify observer (event a)) s u next ↔
      (∀ i a, list[i]? = some a → observer (s.events.length + i) (event a) = none) ∧
        { s with events := s.events ++ list.map event } = next := by
  induction list generalizing s with
  | nil => simp
  | cons a rest ih =>
    simp only [List.forM, yields_bind, yields_notify, List.map_cons]
    constructor
    · rintro ⟨_, _, ⟨hfirst, rfl⟩, hrest⟩
      obtain ⟨hothers, rfl⟩ := ih.mp hrest
      refine ⟨fun i b hi ↦ ?_, by simp⟩
      cases i with
      | zero => exact Option.some.inj hi ▸ hfirst
      | succ i =>
        have hother := hothers i b (by simpa using hi)
        rw [List.length_append, List.length_singleton] at hother
        rwa [Nat.add_assoc, Nat.add_comm 1] at hother
    · rintro ⟨hall, rfl⟩
      refine ⟨(), _, ⟨hall 0 a rfl, rfl⟩, ih.mpr ⟨fun i b hi ↦ ?_, by simp⟩⟩
      have hother := hall (i + 1) b (by simpa using hi)
      rwa [List.length_append, List.length_singleton, Nat.add_assoc, Nat.add_comm 1]

/-- A block ends where its first part stops, or where the rest of it ends. -/
theorem final_bind_cases {P : Session R → Prop} {m : Step R α} {f : α → Step R β} {s : Session R}
    (stopped : (∀ a next, ¬ Yields m s a next) → P (final m s))
    (continued : ∀ a next, Yields m s a next → P (final (f a) next)) :
    P (final (m >>= f) s) := by
  simp only [final, exec_bind]
  rcases h : exec m s with ⟨_ | a, next⟩
  · have hstop := stopped fun _ _ hyields ↦ by
      rw [Yields, h] at hyields
      cases hyields
    rwa [final, h] at hstop
  · exact continued a next h

/-! ### Sessions -/

/-- Whatever way a step ends, the session that it leaves is related to the one that it found. -/
def Along (rel : Session R → Session R → Prop) (m : Step R α) : Prop :=
  ∀ s, rel s (final m s)

section Along

variable {rel : Session R → Session R → Prop}

theorem Along.yields {m : Step R α} (h : Along rel m) {s next : Session R} {a : α}
    (hm : Yields m s a next) : rel s next :=
  hm.final_eq ▸ h s

theorem Along.mono {wider : Session R → Session R → Prop} {m : Step R α} (h : Along rel m)
    (hw : ∀ s t, rel s t → wider s t) : Along wider m :=
  fun s ↦ hw _ _ (h s)

theorem Along.modify {f : Session R → Session R} (h : ∀ s, rel s (f s)) :
    Along rel (modify f : Step R PUnit) :=
  h

/-- The session that a step reads first may decide what it does. -/
theorem Along.get_bind {f : Session R → Step R β} (hf : ∀ s, rel s (final (f s) s)) :
    Along rel (get >>= f) :=
  fun s ↦ hf s

variable [IsPreorder (Session R) rel]

theorem Along.pure (a : α) : Along rel (pure a) :=
  fun s ↦ refl_of rel s

theorem Along.throw (stop : Stop) : Along rel (throw stop : Step R α) :=
  fun s ↦ refl_of rel s

theorem Along.bind {m : Step R α} {f : α → Step R β} (hm : Along rel m)
    (hf : ∀ a, Along rel (f a)) : Along rel (m >>= f) :=
  fun s ↦ final_bind_cases (fun _ ↦ hm s) fun a next h ↦ trans_of rel (hm.yields h) (hf a next)

theorem Along.set_bind {t : Session R} {m : PUnit → Step R β} {s : Session R} (hs : rel s t)
    (hm : Along rel (m ⟨⟩)) : rel s (final (set t >>= m) s) :=
  trans_of rel hs (hm t)

theorem Along.forM {f : α → Step R PUnit} (hf : ∀ a, Along rel (f a)) (list : List α) :
    Along rel (list.forM f) := by
  induction list with
  | nil => exact Along.pure _
  | cons a rest ih => exact (hf a).bind fun _ ↦ ih

end Along

/-- What holds of the first session holds of the second. -/
def Carries (P : Session R → Prop) (s t : Session R) : Prop :=
  P s → P t

instance (P : Session R → Prop) : IsPreorder (Session R) (Carries P) where
  refl _ h := h
  trans _ _ _ hfirst hsecond h := hsecond (hfirst h)

end SuiteMigration.Run

/-! ### Two steps side by side -/

namespace SuiteMigration.Run

variable {R α β γ δ : Type}

/-- Two steps both give a value, and the values and the sessions that are left are related by
`post`; or both stop, and the sessions are related by `stopped`. -/
def Beside (stopped : Session R → Session R → Prop)
    (post : α → β → Session R → Session R → Prop) (m : Step R α) (n : Step R β)
    (s t : Session R) : Prop :=
  match exec m s, exec n t with
  | (.ok a, left), (.ok b, right) => post a b left right
  | (.error _, left), (.error _, right) => stopped left right
  | _, _ => False

theorem Yields.final_bind {m : Step R α} {f : α → Step R β} {s next : Session R} {a : α}
    (h : Yields m s a next) : final (m >>= f) s = final (f a) next := by
  unfold Yields at h
  simp only [final, exec_bind, h]

section Beside

variable {stopped : Session R → Session R → Prop} {s t : Session R} {m : Step R α} {n : Step R β}

theorem Beside.of_yields {post : α → β → Session R → Session R → Prop} {a : α} {b : β}
    {left right : Session R} (hm : Yields m s a left) (hn : Yields n t b right)
    (h : post a b left right) : Beside stopped post m n s t := by
  rw [Beside, hm, hn]
  exact h

theorem Beside.of_stopped {post : α → β → Session R → Session R → Prop}
    (hm : ∀ a next, ¬ Yields m s a next) (hn : ∀ b next, ¬ Yields n t b next)
    (h : stopped (final m s) (final n t)) : Beside stopped post m n s t := by
  unfold Beside
  unfold final at h
  rcases hleft : exec m s with ⟨_ | a, left⟩
  · rcases hright : exec n t with ⟨_ | b, right⟩
    · rwa [hleft, hright] at h
    · exact hn b right hright
  · exact absurd hleft (hm a left)

/-- A step ends like itself. -/
theorem Beside.refl {post : α → α → Session R → Session R → Prop}
    (hpost : ∀ a next, Yields m s a next → post a a next next)
    (hstopped : (∀ a next, ¬ Yields m s a next) → stopped (final m s) (final m s)) :
    Beside stopped post m m s s := by
  by_cases h : ∃ a next, Yields m s a next
  · obtain ⟨a, next, hm⟩ := h
    exact .of_yields hm hm (hpost a next hm)
  · have hnone (a : α) (next : Session R) : ¬ Yields m s a next := fun hm ↦ h ⟨a, next, hm⟩
    exact .of_stopped hnone hnone (hstopped hnone)

variable {middle : α → β → Session R → Session R → Prop} {f : α → Step R γ} {g : β → Step R δ}

theorem Beside.bind {post : γ → δ → Session R → Session R → Prop}
    (h : Beside stopped middle m n s t)
    (hrest : ∀ a b left right, middle a b left right →
      Beside stopped post (f a) (g b) left right) :
    Beside stopped post (m >>= f) (n >>= g) s t := by
  unfold Beside at h ⊢
  rw [exec_bind, exec_bind]
  revert h
  rcases exec m s with ⟨_ | a, left⟩ <;> rcases exec n t with ⟨_ | b, right⟩ <;> intro h
  · exact h
  · exact h.elim
  · exact h.elim
  · exact hrest a b left right h

/-- Two blocks are compared where they end: where their first parts stop, or where the rests of them
end. -/
theorem Beside.finals_bind (h : Beside stopped middle m n s t)
    (hrest : ∀ a b left right, middle a b left right →
      stopped (final (f a) left) (final (g b) right)) :
    stopped (final (m >>= f) s) (final (n >>= g) t) := by
  unfold Beside at h
  rw [final, final, exec_bind, exec_bind]
  revert h
  rcases exec m s with ⟨_ | a, left⟩ <;> rcases exec n t with ⟨_ | b, right⟩ <;> intro h
  · exact h
  · exact h.elim
  · exact h.elim
  · exact hrest a b left right h

/-- Two blocks with the same first part end where that stops, or where the rests of them end. -/
theorem finals_bind_cases {f : α → Step R γ} {g : α → Step R δ}
    (hstopped : (∀ a next, ¬ Yields m s a next) → stopped (final m s) (final m s))
    (hrest : ∀ a next, Yields m s a next → stopped (final (f a) next) (final (g a) next)) :
    stopped (final (m >>= f) s) (final (m >>= g) s) := by
  have hself : Beside stopped (fun a b left right ↦ (a = b ∧ left = right) ∧ Yields m s a left)
      m m s s := .refl (fun _ _ h ↦ ⟨⟨rfl, rfl⟩, h⟩) hstopped
  refine hself.finals_bind ?_
  rintro a _ left _ ⟨⟨rfl, rfl⟩, h⟩
  exact hrest a left h

/-- A report ends alike in two runs that have made equally many reports. -/
theorem notify_beside {observer : Observer} {event : Event}
    {post : Unit → Unit → Session R → Session R → Prop}
    (hevents : s.events.length = t.events.length)
    (hpost : post () () { s with events := s.events ++ [event] }
      { t with events := t.events ++ [event] })
    (hstopped : observer s.events.length event ≠ none →
      stopped { s with events := s.events ++ [event] } { t with events := t.events ++ [event] }) :
    Beside stopped post (notify observer event) (notify observer event) s t := by
  rw [Beside, exec_notify, exec_notify, ← hevents]
  cases hobserver : observer s.events.length event with
  | none => exact hpost
  | some message => exact hstopped (hobserver ▸ Option.some_ne_none message)

end Beside

end SuiteMigration.Run
