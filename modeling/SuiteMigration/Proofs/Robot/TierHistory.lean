import SuiteMigration.Proofs.Robot.Marker
import SuiteMigration.Robot.Refresh

/-!
What the marker of a file records over a history of tiers. Each step works on the content that the
step before has left. No step takes back what is recorded, however it is forced and whatever its
fresh content says: a tier never falls, and a checked file stays marked as checked.
-/

set_option autoImplicit false
set_option relaxedAutoImplicit false

namespace SuiteMigration.Robot

/-! ### One step -/

/-- The tier that a text records; zero if it has no marker. -/
def recordedTier (content : String) : Nat :=
  ((Marker.parse? content).map Marker.tier).getD 0

/-- The marker that a tier leaves when it runs. -/
def tierMarker (existing : String) (request : TierRequest) (fresh : Option String) : Marker :=
  { mode := request.mode
    tier := max (recordedTier existing) (effectiveTier request.tier fresh).number
    validated := (runTier existing request fresh).validation.isSome ||
      (Marker.parse? existing).any Marker.validated }

theorem recordedTier_le (content : String) : recordedTier content ≤ 3 := by
  unfold recordedTier
  cases h : Marker.parse? content with
  | none => exact Nat.zero_le 3
  | some m => exact (Marker.tiered_of_parse? h).2

theorem tierMarker_tiered (existing : String) (request : TierRequest) (fresh : Option String) :
    (tierMarker existing request fresh).Tiered := by
  obtain ⟨hlow, hhigh⟩ := Tier.number_bounds (effectiveTier request.tier fresh)
  exact ⟨hlow.trans (Nat.le_max_right _ _), Nat.max_le.mpr ⟨recordedTier_le existing, hhigh⟩⟩

theorem content_runTier (existing : String) (request : TierRequest) (fresh : Option String) :
    ∃ text, (runTier existing request fresh).content =
      ensureMarker text (tierMarker existing request fresh) := by
  dsimp only [runTier, tierMarker, recordedTier]
  exact ⟨_, rfl⟩

/-- The marker of a run survives the rewriting of the documentation and the comment on the check,
because it is put on the text after these. -/
theorem parse?_runTier (existing : String) (request : TierRequest) (fresh : Option String) :
    Marker.parse? (runTier existing request fresh).content =
      some (tierMarker existing request fresh) := by
  obtain ⟨text, htext⟩ := content_runTier existing request fresh
  rw [htext]
  exact (tierMarker_tiered existing request fresh).parse?_ensureMarker text

theorem recordedTier_lt_iff {existing : String} {tier : Tier} :
    recordedTier existing < tier.number ↔ Marker.parse? existing = none ∨
      ∃ m, Marker.parse? existing = some m ∧ m.tier < tier.number := by
  unfold recordedTier
  cases Marker.parse? existing with
  | none => exact ⟨fun _ ↦ Or.inl rfl, fun _ ↦ (Tier.number_bounds tier).1⟩
  | some m => simp

theorem effectiveTier_eq (tier : Tier) (fresh : Option String) :
    effectiveTier tier fresh =
      if tier = .deepRegeneration ∧ fresh = none then .validation else tier := by
  cases tier <;> cases fresh <;> rfl

theorem isRecorded_iff {existing : String} {tier : Tier} :
    isRecorded (Marker.parse? existing) tier = true ↔ tier.number ≤ recordedTier existing := by
  unfold isRecorded recordedTier
  cases Marker.parse? existing with
  | none => exact ⟨nofun, fun h ↦ absurd ((Tier.number_bounds tier).1.trans h) (by decide)⟩
  | some m => exact decide_eq_true_iff

/-- A step is skipped if it is not forced and its tier is recorded; a skipped step changes
nothing. -/
theorem applyTier_cases (existing : String) (request : TierRequest) (fresh : Option String) :
    (¬ (request.force = true ∨ recordedTier existing < request.tier.number) ∧
        applyTier existing request fresh = ⟨existing, false, none, none⟩) ∨
      ((request.force = true ∨ recordedTier existing < request.tier.number) ∧
        applyTier existing request fresh = runTier existing request fresh) := by
  have hskipped : (!request.force && isRecorded (Marker.parse? existing) request.tier) = true ↔
      ¬ (request.force = true ∨ recordedTier existing < request.tier.number) := by
    rw [Bool.and_eq_true, isRecorded_iff, Bool.not_eq_true', not_or, Nat.not_lt, Bool.not_eq_true]
  unfold applyTier
  split
  next h => exact Or.inl ⟨hskipped.mp h, rfl⟩
  next h => exact Or.inr ⟨of_not_not (hskipped.not.mp h), rfl⟩

theorem applyTier_of_force (existing : String) {request : TierRequest} (h : request.force = true)
    (fresh : Option String) :
    applyTier existing request fresh = runTier existing request fresh := by
  obtain ⟨hskipped, _⟩ | ⟨_, heq⟩ := applyTier_cases existing request fresh
  · exact absurd (Or.inl h) hskipped
  · exact heq

/-! ### What is kept -/

/-- The second text records all that the first one does: it has a marker if that has one, with a
tier that is not lower, and marked as checked if that is. -/
def KeepsRecord (before after : String) : Prop :=
  ∀ m, Marker.parse? before = some m → ∃ n, Marker.parse? after = some n ∧ m.tier ≤ n.tier ∧
    (m.validated = true → n.validated = true)

instance : IsPreorder String KeepsRecord where
  refl _ m hm := ⟨m, hm, Nat.le_refl _, fun h ↦ h⟩
  trans _ _ _ hfirst hsecond m hm := by
    obtain ⟨n, hn, htier, hvalidated⟩ := hfirst m hm
    obtain ⟨last, hlast, htiers, hkept⟩ := hsecond n hn
    exact ⟨last, hlast, htier.trans htiers, fun h ↦ hkept (hvalidated h)⟩

theorem runTier_keepsRecord (existing : String) (request : TierRequest) (fresh : Option String) :
    KeepsRecord existing (runTier existing request fresh).content := by
  intro m hm
  refine ⟨_, parse?_runTier existing request fresh, ?_, fun hvalidated ↦ ?_⟩
  · have hrecorded : recordedTier existing = m.tier := by
      rw [recordedTier, hm]
      rfl
    rw [← hrecorded]
    exact Nat.le_max_left _ _
  · unfold tierMarker
    rw [hm, Option.any_some, hvalidated, Bool.or_true]

theorem applyTier_keepsRecord (existing : String) (request : TierRequest)
    (fresh : Option String) : KeepsRecord existing (applyTier existing request fresh).content := by
  obtain ⟨_, heq⟩ | ⟨_, heq⟩ := applyTier_cases existing request fresh
  · rw [heq]
    exact refl_of KeepsRecord existing
  · rw [heq]
    exact runTier_keepsRecord existing request fresh

/-! ### Histories -/

/-- A step of a history: what is asked for, and the content generated from the source, if any. -/
structure TierStep where
  request : TierRequest
  fresh : Option String

def TierStep.outcome (step : TierStep) (content : String) : TierOutcome :=
  applyTier content step.request step.fresh

/-- The contents of a file over a history of tiers, the one at the start included. -/
def tierHistory (start : String) (steps : List TierStep) : List String :=
  steps.scanl (fun content step ↦ (step.outcome content).content) start

theorem tierHistory_keepsRecord (start : String) (steps : List TierStep) :
    (tierHistory start steps).Pairwise KeepsRecord := by
  have hstart (start : String) (steps : List TierStep) :
      ∀ content ∈ tierHistory start steps, KeepsRecord start content := by
    induction steps generalizing start with
    | nil =>
      intro content hcontent
      rw [List.mem_singleton.mp hcontent]
      exact refl_of KeepsRecord start
    | cons step rest ih =>
      intro content hcontent
      rw [tierHistory, List.scanl_cons] at hcontent
      obtain rfl | hcontent := List.mem_cons.mp hcontent
      · exact refl_of KeepsRecord content
      · exact trans_of KeepsRecord (applyTier_keepsRecord start _ _) (ih _ content hcontent)
  induction steps generalizing start with
  | nil => exact List.pairwise_singleton _ _
  | cons step rest ih =>
    rw [tierHistory, List.scanl_cons]
    refine List.pairwise_cons.mpr ⟨fun content hcontent ↦ ?_, ih _⟩
    exact trans_of KeepsRecord (applyTier_keepsRecord start _ _) (hstart _ rest content hcontent)

theorem tierHistory_step (start : String) {steps : List TierStep} {i : Nat} {step : TierStep}
    (h : steps[i]? = some step) :
    ∃ before, (tierHistory start steps)[i]? = some before ∧
      (tierHistory start steps)[i + 1]? = some (step.outcome before).content := by
  obtain ⟨hlength, _⟩ := List.getElem?_eq_some_iff.mp h
  refine ⟨_, List.getElem?_scanl.trans (if_pos hlength.le), ?_⟩
  rw [tierHistory, List.getElem?_succ_scanl, List.getElem?_scanl, if_pos hlength.le, h]
  rfl

/-- Over a whole history of tiers no content records less than one before it. A step runs exactly
if it is forced, or no marker or one with a lower tier is there; then the marker has the mode that
the step asks for, and the higher one of the tier recorded before and the tier that ran. A step
that does not run changes nothing. -/
theorem recorded_tier_never_falls (start : String) (steps : List TierStep) :
    (tierHistory start steps).Pairwise KeepsRecord ∧
      ∀ i step, steps[i]? = some step →
        ∃ before after, (tierHistory start steps)[i]? = some before ∧
          (tierHistory start steps)[i + 1]? = some after ∧
          ((step.outcome before).applied.isSome ↔
            step.request.force = true ∨ Marker.parse? before = none ∨
              ∃ m, Marker.parse? before = some m ∧ m.tier < step.request.tier.number) ∧
          ((step.outcome before).applied.isSome →
            ∃ m, Marker.parse? after = some m ∧ m.mode = step.request.mode ∧
              m.tier = max (((Marker.parse? before).map Marker.tier).getD 0)
                (if step.request.tier = .deepRegeneration ∧ step.fresh = none then Tier.validation
                  else step.request.tier).number) ∧
          ((step.outcome before).applied = none → after = before) := by
  refine ⟨tierHistory_keepsRecord start steps, fun i step hstep ↦ ?_⟩
  obtain ⟨before, hbefore, hafter⟩ := tierHistory_step start hstep
  refine ⟨before, _, hbefore, hafter, ?_⟩
  rw [← recordedTier_lt_iff]
  obtain ⟨hskips, heq⟩ | ⟨hrun, heq⟩ := applyTier_cases before step.request step.fresh
  · rw [TierStep.outcome, heq]
    exact ⟨⟨nofun, fun h ↦ absurd h hskips⟩, nofun, fun _ ↦ rfl⟩
  · rw [TierStep.outcome, heq]
    refine ⟨⟨fun _ ↦ hrun, fun _ ↦ rfl⟩, fun _ ↦ ?_, nofun⟩
    refine ⟨tierMarker before step.request step.fresh,
      parse?_runTier before step.request step.fresh, rfl, ?_⟩
    rw [← effectiveTier_eq]
    rfl

end SuiteMigration.Robot
