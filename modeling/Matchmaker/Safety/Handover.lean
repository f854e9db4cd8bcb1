import Matchmaker.Protocol.Ownership

namespace Matchmaker

open Concurrent

/-! What is published when the Reaper takes players from slow workers. The
exchange of `mark_matched` may fail, and its caller does not notice. -/

section Run

variable {config : Config} {clock : Clock} {system : System}

/-- An attempt publishes only what it has matched, no player is published
twice, and no evicted player is published, as long as no call acts on a claim
that the Reaper has taken from it. -/
theorem handover_safe (run : Run config clock .keptClaims system) :
    PublishesOwn system.trace ∧ (published system.trace).Nodup ∧
      (∀ caller player, ⟨caller, player, .tryEvict⟩ ∈ transfers system.trace →
        player ∉ published system.trace) ∧
      ∀ caller id, system.calls[caller]? =
          some ⟨.cancel id, .pure (.cancel (.ok ()))⟩ →
        ∃ player, player.id = id ∧
          ⟨caller, player, .tryEvict⟩ ∈ transfers system.trace := by
  have own := Run.publishesOwn run
  exact ⟨own, Run.published_nodup run own,
    fun _ _ evicted => Run.published_not_evicted run own evicted,
    fun _ _ returned => Run.cancelled run returned⟩

end Run

/-- A worker claims ten players and stalls. The Reaper resets them, one of them
is cancelled, and the worker goes on. -/
def staleHandover : List Action :=
  arrivals 10 1500 ++ .start (.attemptMatch 1) :: turns 10 66 ++
    [.tick 1000000000 1000, .start .reaperTick] ++ turns 11 63 ++
    .start (.cancel 1) :: turns 12 6 ++ turns 10 80

def PublishesCancelled (trace : Trace) : Prop :=
  ∃ transfer ∈ transfers trace, transfer.site = .tryEvict ∧
    transfer.player ∈ published trace

instance (trace : Trace) : Decidable (PublishesCancelled trace) :=
  inferInstanceAs (Decidable (∃ transfer ∈ transfers trace,
    transfer.site = .tryEvict ∧ transfer.player ∈ published trace))

set_option maxRecDepth 100000 in
theorem exists_cancelled_published :
    ∃ system, Run .default ⟨0, 1000⟩ .free system ∧
      ¬ PublishesOwn system.trace ∧ PublishesCancelled system.trace := by
  obtain ⟨system, run, check⟩ : ∃ system,
      Run .default ⟨0, 1000⟩ .free system ∧
        decide (¬ PublishesOwn system.trace ∧
          PublishesCancelled system.trace) = true := by
    apply exists_run_of_play staleHandover
    decide +kernel
  exact ⟨system, run, of_decide_eq_true check⟩

set_option maxRecDepth 100000 in
theorem handover_safe_match :
    ∃ system, Run .default ⟨0, 1000⟩ .keptClaims system ∧
      PublishesOwn system.trace ∧ (published system.trace).Nodup ∧
      (published system.trace).length = 10 ∧
      system.world.metrics.totalStaleClaimsRecovered = 9 := by
  obtain ⟨system, run, check⟩ : ∃ system,
      Run .default ⟨0, 1000⟩ .keptClaims system ∧
        decide ((published system.trace).length = 10 ∧
          system.world.metrics.totalStaleClaimsRecovered = 9) = true := by
    apply exists_run_of_play lateReleases
    decide +kernel
  obtain ⟨own, nodup, _⟩ := handover_safe run
  exact ⟨system, run, own, nodup, of_decide_eq_true check⟩

end Matchmaker
