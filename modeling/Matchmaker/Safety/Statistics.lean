import Matchmaker.Outcome.Records
import Matchmaker.Protocol.Accruals

namespace Matchmaker

open Concurrent

/-! What the metrics and the history tell of the matches, whatever the
interleaving. -/

theorem history_pushHistory {core : Core} {choice : Choice}
    {teamA teamB : List Player} {record : Match} {limit : Nat} :
    (core.perform choice
        (.pushHistory teamA teamB record limit)).2.history =
      (core.history ++ [record]).drop (core.history.length + 1 - limit) := rfl

section Run

variable {config : Config} {clock : Clock} {discipline : Discipline}
  {system : System}

theorem Run.history (run : Run config clock discipline system) :
    system.world.history = (publishedRecords system.trace).reverse.drop
      ((publishedRecords system.trace).reverse.length - matchHistoryLimit) := by
  refine Run.invariant run (fun core trace => core.history =
    (publishedRecords trace).reverse.drop
      ((publishedRecords trace).reverse.length - matchHistoryLimit)) rfl
    (fun _ _ holds => holds) ?_
  intro system mover request operation choice run performing holds
  cases operation with
  | exchange player site =>
      simp only [Core.perform, Core.exchange, System.eventOf]
      split <;> exact holds
  | pushHistory teamA teamB record limit =>
      obtain ⟨rfl, _⟩ := performing.composes run
      have grown : (publishedRecords (system.eventOf mover choice
          (.pushHistory teamA teamB record matchHistoryLimit) ::
            system.trace)).reverse =
          (publishedRecords system.trace).reverse ++ [record] :=
        List.reverse_cons
      rw [grown, ← drop_concat, ← holds]
      exact history_pushHistory ..
  | _ => exact holds

theorem Run.recent (run : Run config clock discipline system) (limit : Nat) :
    MatchmakerCore.recentMatches system.world limit =
      (publishedRecords system.trace).take (min limit matchHistoryLimit) := by
  rw [MatchmakerCore.recentMatches, Run.history run, List.reverse_drop,
    List.take_take, List.reverse_reverse, List.length_reverse]
  generalize publishedRecords system.trace = records
  generalize matchHistoryLimit = most
  rw [List.take_eq_take_iff]
  omega

end Run

/-- In every state of every run, resets of live claims included, the counters
agree but for what the calls in progress have still to enter. -/
theorem counters_paced {config : Config} {clock : Clock} {system : System}
    (run : Run config clock .free system) :
    Paced system.inProgress.1 system.inProgress.2
      (system.world.accrual system.trace) :=
  Run.paced run

set_option maxRecDepth 100000 in
/-- An attempt has counted its match but not yet its players, and a player has
joined who is not yet in the gauge. -/
theorem counters_paced_midway :
    ∃ system, Run .default ⟨0, 1000⟩ .free system ∧
      Paced 1 1 (system.world.accrual system.trace) ∧
      system.world.metrics.totalMatchesCreated = 1 ∧
      system.world.metrics.totalPlayersMatched = 0 ∧
      system.world.metrics.totalPlayersEnqueued = 11 ∧
      system.world.metrics.currentQueueSize = 10 := by
  obtain ⟨system, run, check⟩ : ∃ system,
      Run .default ⟨0, 1000⟩ .free system ∧
        decide (system.inProgress = (1, 1) ∧
          system.world.metrics.totalMatchesCreated = 1 ∧
          system.world.metrics.totalPlayersMatched = 0 ∧
          system.world.metrics.totalPlayersEnqueued = 11 ∧
          system.world.metrics.currentQueueSize = 10) = true := by
    apply exists_run_of_play (arrivals 10 1500 ++
      .start (.attemptMatch 1) :: turns 10 140 ++
      .start (.enqueue 11 1500) :: turns 11 6)
    decide +kernel
  obtain ⟨busy, counts⟩ := of_decide_eq_true check
  have paced := counters_paced run
  rw [busy] at paced
  exact ⟨system, run, paced, counts⟩

/-- What `GET /metrics` and `GET /matches` tell of these matches, latest
first. -/
structure Summarises (records : List Match) (core : Core) : Prop where
  created : core.metrics.snapshot.totalMatchesCreated = records.length
  matched : core.metrics.snapshot.totalPlayersMatched =
    matchSize * records.length
  avgSkillSpread : core.metrics.snapshot.avgSkillSpread =
    (records.map (·.skillSpread)).sum / records.length
  avgTeamDelta : core.metrics.snapshot.avgTeamDelta =
    (records.map (·.teamDelta)).sum / records.length
  totalWaitTimeMs :
    matchSize * (records.map (·.avgWaitMs)).sum ≤
        core.metrics.snapshot.totalWaitTimeMs ∧
      core.metrics.snapshot.totalWaitTimeMs ≤
        matchSize * (records.map (·.avgWaitMs)).sum +
          (matchSize - 1) * records.length
  avgWaitMs :
    (records.map (·.avgWaitMs)).sum / records.length ≤
        core.metrics.snapshot.avgWaitMs ∧
      core.metrics.snapshot.avgWaitMs ≤
        (records.map (·.avgWaitMs)).sum / records.length + 1
  recent : ∀ limit, MatchmakerCore.recentMatches core limit =
    records.take (min limit matchHistoryLimit)

theorem averages {total sum count : Nat}
    (low : matchSize * sum ≤ total)
    (high : total ≤ matchSize * sum + (matchSize - 1) * count) :
    sum / count ≤ total / (matchSize * count) ∧
      total / (matchSize * count) ≤ sum / count + 1 := by
  have tenth : sum ≤ total / matchSize ∧ total / matchSize ≤ sum + count := by
    simp only [matchSize] at *
    omega
  rw [← Nat.div_div_eq_div_mul]
  refine ⟨Nat.div_le_div_right tenth.1, ?_⟩
  cases count with
  | zero => simp
  | succ more =>
      rw [← Nat.add_div_right sum more.succ_pos]
      exact Nat.div_le_div_right tenth.2

theorem checkedDiv_eq (dividend divisor : Nat) :
    (checkedDiv dividend divisor).getD 0 = dividend / divisor := by
  rw [checkedDiv_getD]
  split
  · rename_i none
    rw [none, Nat.div_zero]
  · rfl

theorem Run.summarises {config : Config} {clock : Clock} {system : System}
    (run : Run config clock .free system) (quiet : system.Quiet)
    (small : system.world.metrics.totalWaitTimeMs < 2 ^ 64) :
    Summarises (publishedRecords system.trace) system.world := by
  obtain ⟨⟨matched, spreadCount, deltaCount, pushed, _, _, _, spreadSum,
    deltaSum, waitSum⟩, _, spreads, deltas, waits⟩ := Run.cleared run quiet
  have recent := Run.recent run
  have read := Metrics.load_eq small .totalWaitTimeMs
  simp only [Core.accrual, Metrics.total] at *
  generalize publishedRecords system.trace = records at *
  have created : system.world.metrics.totalMatchesCreated = records.length := by
    omega
  have players : system.world.metrics.totalPlayersMatched =
      matchSize * records.length := by
    simp only [matchSize] at *
    omega
  have waited : matchSize * (records.map (·.avgWaitMs)).sum ≤
        system.world.metrics.load .totalWaitTimeMs ∧
      system.world.metrics.load .totalWaitTimeMs ≤
        matchSize * (records.map (·.avgWaitMs)).sum +
          (matchSize - 1) * records.length := by
    simp only [matchSize] at *
    omega
  refine ⟨created, players, ?_, ?_, waited, ?_, recent⟩
  · show (checkedDiv system.world.metrics.skillSpreadSum
      system.world.metrics.skillSpreadCount).getD 0 = _
    rw [checkedDiv_eq]
    congr 1 <;> omega
  · show (checkedDiv system.world.metrics.teamDeltaSum
      system.world.metrics.teamDeltaCount).getD 0 = _
    rw [checkedDiv_eq]
    congr 1 <;> omega
  · show _ ≤ (checkedDiv (system.world.metrics.load .totalWaitTimeMs)
      system.world.metrics.totalPlayersMatched).getD 0 ∧ _
    rw [Metrics.snapshot, checkedDiv_eq, players]
    exact averages waited.1 waited.2

/-- Whenever no call is in progress, the endpoints tell of exactly the matches
that were published, however the calls were interleaved, as long as the sum of
the waits has not wrapped. -/
theorem statistics_at_rest {config : Config} {clock : Clock} {system : System}
    (run : Run config clock .free system) (quiet : system.Quiet)
    (small : system.world.metrics.totalWaitTimeMs < 2 ^ 64) :
    Summarises (publishedRecords system.trace) system.world :=
  Run.summarises run quiet small

set_option maxRecDepth 100000 in
/-- A slow attempt whose players are all reset before it goes on. -/
theorem statistics_at_rest_resets :
    ∃ system, Run .default ⟨0, 1000⟩ .free system ∧
      Summarises (publishedRecords system.trace) system.world ∧
      (publishedRecords system.trace).length = 1 ∧
      system.world.metrics.totalStaleClaimsRecovered = 5 := by
  obtain ⟨system, run, check⟩ : ∃ system,
      Run .default ⟨0, 1000⟩ .free system ∧
        decide (system.Quiet ∧
          system.world.metrics.totalWaitTimeMs < 2 ^ 64 ∧
          (publishedRecords system.trace).length = 1 ∧
          system.world.metrics.totalStaleClaimsRecovered = 5) = true := by
    apply exists_run_of_play (arrivals 11 1500 ++
      .start (.attemptMatch 1) :: turns 11 85 ++
      .tick 1000 1000 :: .start .reaperTick :: turns 12 39 ++ turns 11 65)
    decide +kernel
  obtain ⟨quiet, small, one, recovered⟩ := of_decide_eq_true check
  exact ⟨system, run, statistics_at_rest run quiet small, one, recovered⟩

end Matchmaker
