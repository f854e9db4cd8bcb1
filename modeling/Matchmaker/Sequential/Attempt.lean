import Matchmaker.Sequential.Forming
import Matchmaker.Sequential.Seeds

namespace Matchmaker

open Concurrent

/-! What an attempt does when it runs alone. -/

/-- The ten players that an attempt with these bounds puts into a match. -/
def Core.chosen (core : Core) (bounds : Nat × Nat) : List Player :=
  (core.candidates bounds).take matchSize

def Core.count (core : Core) (counter : Counter) : Core :=
  { core with metrics := core.metrics.fetchAdd 1 counter }

/-- The steps were taken after this reading of the clock. -/
structure Moments.After (moments : Moments) (passes : Clock → Clock → Prop)
    (now : Clock) (players : List Player) : Prop where
  claimed : Sometime passes now (moments.claimedMs = ·.unixMs)
  matched : ∀ player ∈ players, Sometime passes now fun clock =>
    moments.matchedAt player = clock.instant

/-- The three ways in which an attempt ends. -/
inductive Core.Attempts (core : Core) (passes : Clock → Clock → Prop)
    (ctx : WorkerContext) (state : WorkerState) :
    MatchAttemptResult × WorkerState → Core → Prop
  | poolEmpty {core' : Core} (nobody : core.waiting = [])
      (drifts : core.Drifts passes core') :
      Attempts core passes ctx state (.poolEmpty, state) core'
  | insufficient {seed : Player} {bounds : Nat × Nat} {stage : Nat}
      {core' : Core} (selects : core.Selects passes ctx state (some seed))
      (scans : core.Scans passes ctx seed bounds)
      (few : (core.window bounds).length < matchSize)
      (staged : Sometime passes core.clock fun clock =>
        stage = stageAfter ctx.config
          (clock.instant.msSince seed.joinTimestamp))
      (drifts : ((core.count .workerCyclesTotal).count
        .matchAttemptsInsufficient).Drifts passes core') :
      Attempts core passes ctx state
        (.insufficientCandidates (core.window bounds).length
          ((bounds.2 + 2 ^ 32 - bounds.1) % 2 ^ 32) seed.skillRating stage,
          state.recordFailure seed.id) core'
  | success {seed : Player} {bounds : Nat × Nat} {moments : Moments}
      {core' : Core} (selects : core.Selects passes ctx state (some seed))
      (scans : core.Scans passes ctx seed bounds)
      (enough : matchSize ≤ (core.window bounds).length)
      (after : moments.After passes core.clock (core.chosen bounds))
      (drifts : ((core.count .workerCyclesTotal).form ctx
        (core.chosen bounds) moments).Drifts passes core') :
      Attempts core passes ctx state
        (.success (moments.record (core.chosen bounds)), state.reset) core'

variable {passes : Clock → Clock → Prop} {ctx : WorkerContext}
  {state : WorkerState} {core : Core} {bounds : Nat × Nat}

theorem boundsWithin_le {skillRating window : Nat}
    (bounded : skillRating ≤ maxSkillRating) :
    (boundsWithin skillRating window).1 ≤ maxSkillRating ∧
      (boundsWithin skillRating window).2 ≤ maxSkillRating :=
  ⟨le_trans (Nat.sub_le ..) bounded, Nat.min_le_right ..⟩

section Chosen

variable (keyed : WellKeyed core) (synchronised : Synchronised core)
include keyed synchronised

theorem Core.length_chosen
    (enough : matchSize ≤ (core.window bounds).length) :
    (core.chosen bounds).length = matchSize := by
  rw [Core.chosen, List.length_take, Core.length_candidates keyed synchronised]
  simp only [matchSize, maxCandidatesPerScan] at *
  omega

omit synchronised in
theorem Core.nodup_chosen : (core.chosen bounds).Nodup :=
  (Core.nodup_candidates keyed).sublist (List.take_sublist ..)

theorem Core.chosen_subset {player : Player}
    (member : player ∈ core.chosen bounds) : player ∈ core.window bounds :=
  Core.candidates_subset keyed synchronised (List.mem_of_mem_take member)

end Chosen

/-- The same with the bounds as the scan clamps them, for ratings of any
size. -/
inductive Core.Tries (core : Core) (passes : Clock → Clock → Prop)
    (ctx : WorkerContext) (state : WorkerState) :
    MatchAttemptResult × WorkerState → Core → Prop
  | poolEmpty {core' : Core} (nobody : core.waiting = [])
      (drifts : core.Drifts passes core') :
      Tries core passes ctx state (.poolEmpty, state) core'
  | insufficient {seed : Player} {bounds : Nat × Nat} {stage : Nat}
      {core' : Core} (selects : core.Selects passes ctx state (some seed))
      (scans : core.Scans passes ctx seed bounds)
      (few : (core.window (clamped bounds)).length < matchSize)
      (staged : Sometime passes core.clock fun clock =>
        stage = stageAfter ctx.config
          (clock.instant.msSince seed.joinTimestamp))
      (drifts : ((core.count .workerCyclesTotal).count
        .matchAttemptsInsufficient).Drifts passes core') :
      Tries core passes ctx state
        (.insufficientCandidates (core.window (clamped bounds)).length
          ((bounds.2 + 2 ^ 32 - bounds.1) % 2 ^ 32) seed.skillRating stage,
          state.recordFailure seed.id) core'
  | success {seed : Player} {bounds : Nat × Nat} {moments : Moments}
      {core' : Core} (selects : core.Selects passes ctx state (some seed))
      (scans : core.Scans passes ctx seed bounds)
      (enough : matchSize ≤ (core.window (clamped bounds)).length)
      (after : moments.After passes core.clock
        (core.chosen (clamped bounds)))
      (drifts : ((core.count .workerCyclesTotal).form ctx
        (core.chosen (clamped bounds)) moments).Drifts passes core') :
      Tries core passes ctx state
        (.success (moments.record (core.chosen (clamped bounds))),
          state.reset) core'

theorem alone_attemptMatch_tries [IsPreorder Clock passes]
    (keyed : WellKeyed core) (synchronised : Synchronised core) :
    Alone passes core (attemptMatch ctx state)
      (core.Tries passes ctx state) := by
  apply finds_selectSeed.bind
  intro seed? clock selects passed
  cases seed? with
  | none =>
      exact .poolEmpty selects.nobody ⟨clock, passed, rfl⟩
  | some seed =>
      apply (finds_scanBounds seed).bind
      rintro bounds clock₁ ⟨moment, passed', scans⟩ passed₁
      have scanned : core.Scans passes ctx seed bounds :=
        ⟨moment, trans_of passes passed passed', scans⟩
      apply Finds.bind (finds_relaxationStage _ _)
      intro stage clock₂ staged passed₂
      apply Turns.bind (counts_fetchAdd _ _ _)
      rintro clock₃ passed₃
      change Alone passes ((core.count .workerCyclesTotal).timed clock₃) _ _
      refine Finds.bind (PlayerPool.finds_clampedScan
        ⟨keyed.primary, keyed.index⟩ synchronised) ?_
      rintro _ clock₄ rfl passed₄
      have earlier := trans_of passes passed passed₁
      have later := trans_of passes (trans_of passes earlier passed₂)
        (trans_of passes passed₃ passed₄)
      have length := @Core.length_candidates core (clamped bounds) keyed
        synchronised
      change Alone passes ((core.count .workerCyclesTotal).timed clock₄)
        (if (core.candidates (clamped bounds)).length < matchSize then _
          else claimMatch ctx state seed (core.candidates (clamped bounds))) _
      split
      · rename_i few
        have counts : (core.candidates (clamped bounds)).length =
            (core.window (clamped bounds)).length := by
          simp only [maxCandidatesPerScan, matchSize] at *
          omega
        apply Turns.bind (counts_fetchAdd _ _ _)
        rintro clock₅ passed₅
        show core.Tries passes ctx state (.insufficientCandidates
          (core.candidates (clamped bounds)).length _ _ _, _) _
        rw [counts]
        rw [counts] at few
        exact .insufficient selects scanned few (staged.later earlier)
          ⟨clock₅, trans_of passes later passed₅, rfl⟩
      · rename_i many
        have windowed := fun player =>
          @Core.candidates_subset core (clamped bounds) keyed synchronised
            player
        refine Program.Ensures.mono (alone_claimMatch
          (Core.nodup_candidates keyed) ?_ ?_ (by omega)) ?_
        · intro player member
          exact (Core.mem_window.mp (windowed player member)).2.1
        · intro player member
          obtain ⟨id, found⟩ := (Core.mem_window.mp (windowed player member)).1
          rw [keyed.primary found]
          exact found
        · intro _ core' given
          obtain ⟨moments, claimed, matched, rfl, drifts⟩ := given
          rw [Core.form_timed] at drifts
          obtain ⟨last, passed₅, rfl⟩ := drifts
          exact .success selects scanned (by omega)
            ⟨claimed.later later, fun player member =>
              (matched player member).later later⟩
            ⟨last, trans_of passes later passed₅, rfl⟩

theorem Core.Tries.attempts {outcome : MatchAttemptResult × WorkerState}
    {core' : Core} (consistent : Consistent core)
    (tries : core.Tries passes ctx state outcome core') :
    core.Attempts passes ctx state outcome core' := by
  have limits {seed : Player} {bounds : Nat × Nat}
      (selects : core.Selects passes ctx state (some seed))
      (scans : core.Scans passes ctx seed bounds) : clamped bounds = bounds := by
    obtain ⟨⟨id, found⟩, _⟩ := Core.mem_waiting.mp selects.waiting
    obtain ⟨clock, _, rfl⟩ := scans
    obtain ⟨lower, upper⟩ := @boundsWithin_le _ (windowAfter ctx.config
      (clock.instant.msSince seed.joinTimestamp)) (consistent.bounded found)
    exact clamped_eq lower upper
  cases tries with
  | poolEmpty nobody drifts => exact .poolEmpty nobody drifts
  | insufficient selects scans few staged drifts =>
      rw [limits selects scans] at few ⊢
      exact .insufficient selects scans few staged drifts
  | success selects scans enough after drifts =>
      rw [limits selects scans] at enough after drifts ⊢
      exact .success selects scans enough after drifts

theorem alone_attemptMatch [IsPreorder Clock passes]
    (consistent : Consistent core) :
    Alone passes core (attemptMatch ctx state)
      (core.Attempts passes ctx state) :=
  (alone_attemptMatch_tries consistent.toWellKeyed
    consistent.synchronised).mono fun _ _ tries => tries.attempts consistent

end Matchmaker
