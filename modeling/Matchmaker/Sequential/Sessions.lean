import Matchmaker.Sequential.Queue
import Matchmaker.Sequential.Reaping
import Matchmaker.Sequential.Rounds
import Matchmaker.System

namespace Matchmaker

open Concurrent

/-! Calls of every kind, complete and one after the other. -/

/-- What each worker keeps from one attempt to the next. -/
abbrev Workers := Nat → WorkerState

def serve (config : Config) (matchHistoryLimit : Nat) (workers : Workers) :
    Request → Task (Response × Workers)
  | .enqueue id skillRating => do
      let outcome ← MatchmakerCore.enqueue id skillRating
      return (.enqueue outcome, workers)
  | .cancel id => do
      let outcome ← MatchmakerCore.cancel id
      return (.cancel outcome, workers)
  | .attemptMatch workerId => do
      let (outcome, state) ←
        attemptMatch ⟨workerId, config, matchHistoryLimit⟩ (workers workerId)
      return (.attemptMatch outcome state,
        Function.update workers workerId state)
  | .reaperTick => do
      reaperTick config.staleClaimTimeoutMs
      return (.reaperTick, workers)

abbrev SessionLog := List (Program.Served semantics Request Response)

/-- The core as the calls leave it, with the clock going on in between. -/
abbrev Sessions (passes : Clock → Clock → Prop) (config : Config)
    (matchHistoryLimit : Nat) :
    Workers → Core → SessionLog → Workers → Core → Prop :=
  Program.Serial semantics (Core.Drifts passes)
    (serve config matchHistoryLimit)

/-- What a call does when it runs alone. -/
inductive Core.Serves (core : Core) (passes : Clock → Clock → Prop)
    (config : Config) (matchHistoryLimit : Nat) (workers : Workers) :
    Request → Response → Workers → Core → Prop
  | enqueue {id : Uuid} {skillRating : Nat}
      {outcome : Except EnqueueError Nat} {core' : Core}
      (enqueues : core.Enqueues passes id skillRating outcome core') :
      Serves core passes config matchHistoryLimit workers
        (.enqueue id skillRating) (.enqueue outcome) workers core'
  | cancel {id : Uuid} {outcome : Except CancelError Unit} {core' : Core}
      (cancels : core.Cancels passes id outcome core') :
      Serves core passes config matchHistoryLimit workers (.cancel id)
        (.cancel outcome) workers core'
  | attemptMatch {workerId : Nat} {outcome : MatchAttemptResult}
      {state : WorkerState} {core' : Core}
      (attempts : core.Attempts passes
        ⟨workerId, config, matchHistoryLimit⟩ (workers workerId)
        (outcome, state) core') :
      Serves core passes config matchHistoryLimit workers
        (.attemptMatch workerId) (.attemptMatch outcome state)
        (Function.update workers workerId state) core'
  | reaperTick {core' : Core}
      (reaps : Sometime passes core.clock fun moment =>
        (core.reap moment.unixMs config.staleClaimTimeoutMs).Drifts passes
          core') :
      Serves core passes config matchHistoryLimit workers .reaperTick
        .reaperTick workers core'

variable {passes : Clock → Clock → Prop}
  {config : Config} {matchHistoryLimit : Nat} {workers : Workers}
  {core : Core}

theorem alone_serve [IsPreorder Clock passes] (consistent : Consistent core)
    (request : Request) :
    Alone passes core (serve config matchHistoryLimit workers request)
      fun outcome core' => core.Serves passes config matchHistoryLimit workers
        request outcome.1 outcome.2 core' := by
  cases request with
  | enqueue id skillRating =>
      apply Program.Ensures.bind (alone_enqueue id skillRating)
      exact fun outcome core' enqueues => .enqueue enqueues
  | cancel id =>
      apply Program.Ensures.bind (alone_cancel consistent.toWellKeyed id)
      exact fun outcome core' cancels => .cancel cancels
  | attemptMatch workerId =>
      apply Program.Ensures.bind (alone_attemptMatch consistent)
      exact fun outcome core' attempts => .attemptMatch attempts
  | reaperTick =>
      apply Program.Ensures.bind (alone_reaperTick consistent.toWellKeyed)
      exact fun _ core' reaps => .reaperTick reaps

/-- A pool in which nobody is claimed, with the gauge telling its size. -/
structure Resting (core : Core) : Prop extends Consistent core where
  idle : ∀ {id player}, core.primary.lookup id = some player →
    (core.cells player).state = .waiting ∧
      (core.cells player).claimedBy = 0 ∧
      (core.cells player).claimTimestamp = 0
  gauge : core.metrics.currentQueueSize = core.primary.entries.length

section Resting

variable {core' : Core} {players : List Player} (resting : Resting core)
include resting

theorem Resting.drifts (same : core.SamePool core')
    (gauge : core'.metrics.currentQueueSize = core.metrics.currentQueueSize) :
    Resting core' where
  toConsistent := same.consistent resting.toConsistent
  idle := by
    rw [same.primary, same.cells]
    exact resting.idle
  gauge := by
    rw [gauge, same.primary]
    exact resting.gauge

theorem Resting.join {player : Player}
    (bounded : player.skillRating ≤ maxSkillRating)
    (absent : core.primary.lookup player.id = none) :
    Resting (core.join player) where
  toConsistent :=
    (resting.toConsistent.enter bounded absent).stores rfl rfl
  idle := by
    intro id other stored
    have entered : (core.primary.insert player.id player).lookup id =
        some other := stored
    rw [lookup_insert_eq] at entered
    split at entered
    · cases entered
      have fresh : (core.join player).cells player = .new :=
        @Core.cells_setCells_self core player fun _ => .new
      rw [fresh]
      exact ⟨rfl, rfl, rfl⟩
    · have different : other ≠ player := by
        rintro rfl
        have own := resting.toWellKeyed.primary entered
        rw [own, entered] at absent
        cases absent
      have kept : (core.join player).cells other = core.cells other :=
        @Core.cells_setCells_ne core player other (fun _ => .new) different
      rw [kept]
      exact resting.idle entered
  gauge := by
    have length := length_insert_of_absent absent
    have gauge := resting.gauge
    show core.metrics.currentQueueSize + 1 =
      ((core.primary.insert player.id player).entries.length : Int)
    rw [length, gauge]
    rfl

theorem Resting.depart
    (found : ∀ player ∈ players, core.primary.lookup player.id = some player)
    (distinct : players.Nodup)
    (primary : core'.primary = (core.withdraw players).primary)
    (index : core'.index = (core.withdraw players).index)
    (cells : ∀ player, player ∉ players →
      core'.cells player = core.cells player)
    (gauge : core'.metrics.currentQueueSize =
      core.metrics.currentQueueSize - players.length) : Resting core' where
  toConsistent :=
    (resting.toConsistent.withdraw found).stores primary index
  idle := by
    intro id player stored
    rw [primary] at stored
    obtain ⟨⟨id', before⟩, outside⟩ := (Core.stored_withdraw
      resting.toConsistent found).mp ⟨id, stored⟩
    rw [cells player outside]
    exact resting.idle before
  gauge := by
    have lengths := (Core.players_withdraw_perm resting.toConsistent found
      distinct).length_eq
    rw [List.length_append, Primary.players, Primary.players, List.length_map,
      List.length_map] at lengths
    rw [gauge, primary, resting.gauge]
    omega

theorem Resting.attempts {ctx : WorkerContext} {state : WorkerState}
    {outcome : MatchAttemptResult × WorkerState}
    (attempts : core.Attempts passes ctx state outcome core') :
    Resting core' := by
  have consistent := resting.toConsistent
  cases attempts with
  | poolEmpty nobody drifts =>
      obtain ⟨clock, _, rfl⟩ := drifts
      exact resting.drifts ⟨rfl, rfl, rfl⟩ rfl
  | insufficient selects scans few staged drifts =>
      obtain ⟨clock, _, rfl⟩ := drifts
      exact resting.drifts ⟨rfl, rfl, rfl⟩ rfl
  | @success _ bounds moments _ selects scans enough after drifts =>
      obtain ⟨clock, _, rfl⟩ := drifts
      have ten := Core.length_chosen consistent.toWellKeyed
        consistent.synchronised enough
      refine resting.depart
        (fun player member => Core.chosen_found consistent member)
        (Core.nodup_chosen consistent.toWellKeyed) rfl rfl
        (fun player outside => Core.cells_form_not_mem outside) ?_
      rw [ten]
      rfl

theorem Resting.reap (nowMs staleClaimTimeoutMs : Nat) :
    core.SamePool (core.reap nowMs staleClaimTimeoutMs) ∧
      (core.reap nowMs staleClaimTimeoutMs).metrics = core.metrics := by
  have nobody : core.primary.players.filter
      (core.stale nowMs staleClaimTimeoutMs) = [] := by
    apply List.filter_eq_nil_iff.mpr
    intro player member
    obtain ⟨id, found⟩ := Primary.mem_players.mp member
    simp [Core.stale, PlayerCells.stale, (resting.idle found).1]
  rw [Core.reap, nobody, Core.rewrite_nil]
  exact ⟨⟨rfl, rfl, rfl⟩, rfl⟩

theorem Resting.serves {request : Request} {response : Response}
    {workers' : Workers}
    (serves : core.Serves passes config matchHistoryLimit workers request
      response workers' core') : Resting core' := by
  cases serves with
  | enqueue enqueues =>
      cases enqueues with
      | invalid high drifts =>
          obtain ⟨clock, _, rfl⟩ := drifts
          exact resting.drifts ⟨rfl, rfl, rfl⟩ rfl
      | queued bounded found drifts =>
          obtain ⟨clock, _, rfl⟩ := drifts
          exact resting.drifts ⟨rfl, rfl, rfl⟩ rfl
      | joined bounded absent passed drifts =>
          obtain ⟨clock, _, rfl⟩ := drifts
          exact (resting.join bounded absent).drifts ⟨rfl, rfl, rfl⟩ rfl
  | cancel cancels =>
      cases cancels with
      | notFound absent drifts =>
          obtain ⟨clock, _, rfl⟩ := drifts
          exact resting.drifts ⟨rfl, rfl, rfl⟩ rfl
      | currentlyBeingMatched found busy drifts =>
          exact absurd (resting.idle found).1 busy
      | @cancelled player _ found waiting drifts =>
          obtain ⟨clock, _, rfl⟩ := drifts
          obtain rfl := resting.toWellKeyed.primary found
          refine @Resting.depart core _ [player] resting (by simpa using found)
            (List.nodup_singleton player) rfl rfl (fun other outside => ?_) ?_
          · exact @Core.cells_setCells_ne core player other
              (fun cells => { cells with state := .evicted })
              (by simpa using outside)
          · rfl
  | attemptMatch attempts => exact resting.attempts attempts
  | reaperTick reaps =>
      obtain ⟨moment, _, clock, _, rfl⟩ := reaps
      obtain ⟨same, metrics⟩ :=
        resting.reap moment.unixMs config.staleClaimTimeoutMs
      refine resting.drifts ⟨same.cells, same.primary, same.index⟩ ?_
      exact congrArg Metrics.currentQueueSize metrics

end Resting

theorem Resting.new (clock : Clock) : Resting (.new clock) where
  toWellKeyed := .new clock
  synchronised := by
    intro skillRating id
    simp [Core.new]
  bounded := by
    intro id player found
    cases found
  idle := by
    intro id player found
    cases found
  gauge := rfl

/-- Rule for sessions: each call runs alone on a resting core. -/
theorem Sessions.induct [IsPreorder Clock passes]
    {motive : Workers → Core → SessionLog → Workers → Core → Prop}
    (nil : ∀ workers core, Resting core → motive workers core [] workers core)
    (cons : ∀ workers core request response workers' core' log last final,
      Resting core → core.Serves passes config matchHistoryLimit workers
        request response workers' core' → motive workers' core' log last final →
          motive workers core (⟨request, response, core'⟩ :: log) last final)
    {log : SessionLog} {last : Workers} {final : Core}
    (resting : Resting core)
    (sessions : Sessions passes config matchHistoryLimit workers core log last
      final) : motive workers core log last final := by
  refine Program.Serial.rec (motive := fun workers core log last final _ =>
    Resting core → motive workers core log last final) nil ?_ sessions resting
  intro workers core response workers' core' log last final request completes
    _ induction resting
  have serves := (alone_serve resting.toConsistent request).completes completes
  exact cons workers core request response workers' core' log last final
    resting serves (induction (resting.serves serves))

end Matchmaker
