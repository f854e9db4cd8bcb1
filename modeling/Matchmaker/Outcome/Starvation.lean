import Matchmaker.Outcome.Uncontended

namespace Matchmaker

open Concurrent Ranking

/-! What becomes of a player that has waited past the last threshold. -/

variable {passes : Clock → Clock → Prop} {env : String → Option String}
  {ctx : WorkerContext} {state : WorkerState} {core : Core} {seed : Player}

/-- With increasing thresholds, the last stage follows the last of them. -/
theorem windowAfter_last {config : Config} (valid : config.Valid)
    {elapsedMs : Nat} (waited : config.relaxationStage4Ms ≤ elapsedMs) :
    windowAfter config elapsedMs = config.relaxationStage5Delta := by
  have first := valid.stage1Ms
  have second := valid.stage2Ms
  have third := valid.stage3Ms
  rw [windowAfter, if_neg (by omega), if_neg (by omega), if_neg (by omega),
    if_neg (by omega)]

theorem boundsWithin_whole_iff {skillRating window : Nat}
    (bounded : skillRating ≤ maxSkillRating) :
    boundsWithin skillRating window = (0, maxSkillRating) ↔
      skillRating ≤ window ∧ maxSkillRating - skillRating ≤ window := by
  simp only [boundsWithin, Prod.mk.injEq, maxSkillRating] at *
  omega

theorem Core.window_whole (consistent : Consistent core) :
    core.window (0, maxSkillRating) = core.waiting := by
  rw [Core.window_eq]
  apply List.filter_eq_self.mpr
  intro player member
  obtain ⟨⟨id, found⟩, _⟩ := Core.mem_waiting.mp member
  simp [Player.outside, consistent.bounded found]

/-- The eldest player is offered the whole pool, and matched with nine others,
exactly when the last half-width reaches both ends of the scale from its
rating. -/
theorem attemptMatch_floor_iff [IsPreorder Clock passes]
    (accepted : Config.fromEnv env = .ok ctx.config)
    (consistent : Consistent core)
    (enough : matchSize ≤ core.waiting.length)
    (eldest : Least Player.seedKey core.waiting (some seed))
    (waited : ∀ clock, passes core.clock clock →
      ctx.config.relaxationStage4Ms ≤
        clock.instant.msSince seed.joinTimestamp) :
    Finds passes core
          (scanBounds seed.skillRating seed.joinTimestamp ctx.config)
          (· = (0, maxSkillRating)) ∧
        Alone passes core (attemptMatch ctx state)
          (fun outcome _ => ∃ record, outcome.1 = .success record) ↔
      seed.skillRating ≤ ctx.config.relaxationStage5Delta ∧
        maxSkillRating - seed.skillRating ≤
          ctx.config.relaxationStage5Delta := by
  obtain ⟨⟨id, found⟩, _⟩ := Core.mem_waiting.mp eldest.1
  have valid := Config.fromEnv_valid accepted
  have whole := @boundsWithin_whole_iff seed.skillRating
    ctx.config.relaxationStage5Delta (consistent.bounded found)
  have last : ∀ bounds, core.Scans passes ctx seed bounds →
      bounds = boundsWithin seed.skillRating
        ctx.config.relaxationStage5Delta := by
    intro _ given
    obtain ⟨clock, passed, rfl⟩ := given
    exact congrArg _ (windowAfter_last valid (waited clock passed))
  constructor
  · intro given
    obtain ⟨scans, _⟩ := given
    have here := (scans core (.refl core) inOrder).1
    exact whole.mp ((last _ ⟨core.clock, refl_of passes _, rfl⟩).symm.trans
      here)
  · intro covered
    have full : ∀ bounds, core.Scans passes ctx seed bounds →
        bounds = (0, maxSkillRating) := fun bounds scans =>
      (last bounds scans).trans (whole.mpr covered)
    have chosen : ∀ {other},
        core.Selects passes ctx state (some other) → other = seed := by
      intro other selects
      have injective := Core.seedKey_injOn consistent.toWellKeyed
      cases selects with
      | direct eldest' fresh =>
          cases eldest'.unique injective eldest
          rfl
      | @beyond _ _ alternate _ eldest' stuck scans next same =>
          cases eldest'.unique injective eldest
          obtain rfl := full _ scans
          -- nobody is outside the whole scale, so the guard falls back
          have nobody : core.waiting.filter (Player.outside
              (0, maxSkillRating)) = [] := by
            apply List.filter_eq_nil_iff.mpr
            intro player member
            obtain ⟨⟨id, found⟩, _⟩ := Core.mem_waiting.mp member
            simp [Player.outside, consistent.bounded found]
          rw [nobody] at next
          cases alternate with
          | none =>
              cases same
              rfl
          | some player => cases next.1
    refine ⟨(finds_scanBounds seed).mono ?_,
      (alone_attemptMatch consistent).mono ?_⟩
    · intro bounds core' given
      obtain ⟨scans, drifts⟩ := given
      exact ⟨full bounds scans, drifts⟩
    · intro outcome core' attempts
      cases attempts with
      | poolEmpty nobody drifts =>
          rw [nobody] at enough
          simp [matchSize] at enough
      | insufficient selects scans few staged drifts =>
          obtain rfl := chosen selects
          obtain rfl := full _ scans
          rw [Core.window_whole consistent] at few
          omega
      | success => exact ⟨_, rfl⟩

/-- Ten players that have waited for a little more than a minute. -/
def patient (ratings : List Nat) : Core :=
  .stocked ⟨60001 * 1000000, 61001⟩ (lineUp ratings)

set_option maxRecDepth 100000 in
theorem attemptMatch_floor_iff_ten :
    Finds Eq (patient (List.replicate 10 1500))
          (scanBounds 1500 0 soleWorker.config) (· = (0, maxSkillRating)) ∧
        Alone Eq (patient (List.replicate 10 1500))
          (attemptMatch soleWorker .new)
          (fun outcome _ => ∃ record, outcome.1 = .success record) ↔
      1500 ≤ soleWorker.config.relaxationStage5Delta ∧
        maxSkillRating - 1500 ≤ soleWorker.config.relaxationStage5Delta := by
  refine @attemptMatch_floor_iff Eq (fun _ => none) soleWorker .new
    (patient (List.replicate 10 1500)) ⟨0, 1, 1500, 0⟩ _ Config.fromEnv_unset
    (.stocked _ ?_ ?_) ?_ ?_ ?_
  · decide +kernel
  · decide +kernel
  · rw [patient, waiting_stocked _ (by decide +kernel)]
    decide
  · rw [patient, waiting_stocked _ (by decide +kernel)]
    exact ⟨by decide +kernel, by decide +kernel⟩
  · rintro _ rfl
    decide +kernel

/-- The variables of a service whose last stage is no wider than the fourth. -/
def narrowFloor (name : String) : Option String :=
  if name = "RELAXATION_STAGE_5_DELTA" then some "400" else none

def narrowWorker : WorkerContext :=
  { soleWorker with
    config := { Config.default with relaxationStage5Delta := 400 } }

set_option maxRecDepth 100000 in
/-- With an accepted last half-width of 400, a player of rating 0 is left
waiting beside nine of rating 3000. -/
theorem exists_starved :
    Config.fromEnv narrowFloor = .ok narrowWorker.config ∧
      Consistent (patient (0 :: List.replicate 9 3000)) ∧
      matchSize ≤ (patient (0 :: List.replicate 9 3000)).waiting.length ∧
      Least Player.seedKey (patient (0 :: List.replicate 9 3000)).waiting
        (some ⟨0, 1, 0, 0⟩) ∧
      narrowWorker.config.relaxationStage4Ms ≤
        (patient (0 :: List.replicate 9 3000)).clock.instant.msSince 0 ∧
      ((scanBounds 0 0 narrowWorker.config).exec semantics inOrder
        (patient (0 :: List.replicate 9 3000))).1 ≠ (0, maxSkillRating) ∧
      ((attemptMatch narrowWorker .new).exec semantics inOrder
        (patient (0 :: List.replicate 9 3000))).1.1.isSuccess = false := by
  refine ⟨rfl, .stocked _ ?_ ?_, ?_, ?_, ?_, ?_, ?_⟩
  · decide +kernel
  · decide +kernel
  · rw [patient, waiting_stocked _ (by decide +kernel)]
    decide
  · rw [patient, waiting_stocked _ (by decide +kernel)]
    exact ⟨by decide +kernel, by decide +kernel⟩
  · decide +kernel
  · decide +kernel
  · decide +kernel

end Matchmaker
