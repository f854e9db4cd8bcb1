import Matchmaker.Sequential.Scans

namespace Matchmaker

open Concurrent Ranking

/-! Which seed an attempt starts from when it runs alone. -/

/-- The pool that the calls rely on. -/
structure Consistent (core : Core) : Prop extends WellKeyed core where
  synchronised : Synchronised core
  bounded : ∀ {id player}, core.primary.lookup id = some player →
    player.skillRating ≤ maxSkillRating

/-- The bounds that an attempt with this seed scans. -/
def Core.scanned (core : Core) (ctx : WorkerContext) (seed : Player) :
    Nat × Nat :=
  boundsWithin seed.skillRating (windowAfter ctx.config
    (core.clock.instant.msSince seed.joinTimestamp))

/-- The seed that an attempt starts from, if any. -/
def Core.seed (core : Core) (choice : Choice) (ctx : WorkerContext)
    (state : WorkerState) : Option Player :=
  ((selectSeed ctx state).exec semantics choice core).1

/-- The worker has failed so often with this seed that it looks for another. -/
def WorkerState.Stuck (state : WorkerState) (seed : Player) : Prop :=
  state.currentSeedId = some seed.id ∧
    seedRetryLimit ≤ state.consecutiveFailures

variable {passes : Clock → Clock → Prop} {ctx : WorkerContext}
  {state : WorkerState} {core : Core}

/-- The bounds of the seed at some moment of the attempt. -/
def Core.Scans (core : Core) (passes : Clock → Clock → Prop)
    (ctx : WorkerContext) (seed : Player) (bounds : Nat × Nat) : Prop :=
  Sometime passes core.clock fun clock =>
    bounds = (core.timed clock).scanned ctx seed

/-- The seed is the eldest waiting player, or the eldest outside its bounds. -/
inductive Core.Selects (core : Core) (passes : Clock → Clock → Prop)
    (ctx : WorkerContext) (state : WorkerState) : Option Player → Prop
  | direct {seed : Option Player}
      (eldest : Least Player.seedKey core.waiting seed)
      (fresh : ∀ player ∈ seed, ¬ state.Stuck player) :
      Selects core passes ctx state seed
  | beyond {primarySeed : Player} {bounds : Nat × Nat}
      {alternate seed : Option Player}
      (eldest : Least Player.seedKey core.waiting (some primarySeed))
      (stuck : state.Stuck primarySeed)
      (scans : core.Scans passes ctx primarySeed bounds)
      (next : Least Player.seedKey
        (core.waiting.filter (Player.outside bounds)) alternate)
      (chosen : seed = alternate.or (some primarySeed)) :
      Selects core passes ctx state seed

theorem Core.Selects.waiting {seed : Player}
    (selects : core.Selects passes ctx state (some seed)) :
    seed ∈ core.waiting := by
  cases selects with
  | direct eldest fresh => exact eldest.1
  | @beyond primarySeed bounds alternate _ eldest stuck scans next chosen =>
      cases alternate with
      | none =>
          cases chosen
          exact eldest.1
      | some other =>
          cases chosen
          exact (List.mem_filter.mp next.1).1

theorem Core.Selects.nobody (selects : core.Selects passes ctx state none) :
    core.waiting = [] := by
  cases selects with
  | direct eldest fresh => exact eldest
  | @beyond primarySeed bounds alternate _ eldest stuck scans next chosen =>
      cases alternate <;> cases chosen

theorem Core.Selects.unique (keyed : WellKeyed core)
    {seed other : Option Player} (selects : core.Selects Eq ctx state seed)
    (selects' : core.Selects Eq ctx state other) : seed = other := by
  have injective := Core.seedKey_injOn keyed
  cases selects with
  | direct eldest fresh =>
      cases selects' with
      | direct eldest' fresh' => exact eldest.unique injective eldest'
      | beyond eldest' stuck =>
          obtain rfl := eldest.unique injective eldest'
          exact absurd stuck (fresh _ rfl)
  | beyond eldest stuck scans next chosen =>
      cases selects' with
      | direct eldest' fresh =>
          obtain rfl := eldest'.unique injective eldest
          exact absurd stuck (fresh _ rfl)
      | beyond eldest' stuck' scans' next' chosen' =>
          obtain same := eldest.unique injective eldest'
          cases same
          obtain ⟨_, rfl, rfl⟩ := scans
          obtain ⟨_, rfl, rfl⟩ := scans'
          rw [chosen, chosen', next.unique (injective.mono fun _ member =>
            (List.mem_filter.mp member).1) next']

section Alone

variable [IsPreorder Clock passes]

omit [IsPreorder Clock passes] in
theorem finds_scanBounds (seed : Player) :
    Finds passes core
      (scanBounds seed.skillRating seed.joinTimestamp ctx.config)
      (core.Scans passes ctx seed) := by
  rintro _ ⟨clock, passed, rfl⟩ _
  exact ⟨⟨clock, passed, rfl⟩, clock, passed, rfl⟩

omit [IsPreorder Clock passes] in
theorem finds_relaxationStage (joinTimestamp : Instant) (config : Config) :
    Finds passes core (relaxationStage joinTimestamp config) fun stage =>
      Sometime passes core.clock fun clock =>
        stage = stageAfter config (clock.instant.msSince joinTimestamp) := by
  rintro _ ⟨clock, passed, rfl⟩ _
  exact ⟨⟨clock, passed, rfl⟩, clock, passed, rfl⟩

theorem finds_selectSeed :
    Finds passes core (selectSeed ctx state)
      (core.Selects passes ctx state) := by
  apply PlayerPool.finds_oldestWaiting.bind'
  intro eldest clock least passed
  cases eldest with
  | none => exact finds_pure (.direct least nofun)
  | some primarySeed =>
      dsimp only
      split
      · rename_i stuck
        apply (finds_scanBounds primarySeed).bind'
        rintro bounds clock' ⟨moment, passed', scans⟩ _
        apply (PlayerPool.finds_oldestWaitingExcludingRange bounds).bind'
        intro alternate _ next _
        exact finds_pure (.beyond least stuck
          ⟨moment, trans_of passes passed passed', scans⟩ next rfl)
      · rename_i fresh
        exact finds_pure (.direct least (by rintro _ ⟨⟩; exact fresh))

end Alone

end Matchmaker
