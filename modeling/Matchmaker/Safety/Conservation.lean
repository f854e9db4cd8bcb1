import Matchmaker.Protocol.Books
import Matchmaker.Protocol.Ends

namespace Matchmaker

open Concurrent

/-! The counters agree with each other and with what was done whenever no call
is in progress. -/

theorem books_balanced {config : Config} {clock : Clock} {system : System}
    (run : Run config clock .free system) (quiet : system.Quiet) :
    (system.world.books system.trace).Balanced := by
  rw [Books.balanced_iff]
  intro law
  rw [Run.gap run]
  apply Finset.sum_eq_zero
  intro caller member
  obtain ⟨⟨request, program⟩, found⟩ :
      ∃ call, system.calls[caller]? = some call :=
    ⟨_, List.getElem?_eq_getElem (Finset.mem_range.mp member)⟩
  have returned := quiet _ (List.mem_of_getElem? found)
  cases program with
  | perform operation next => cases returned
  | pure response =>
      exact Books.balanced_iff.mp
        ((Run.follows_ledger run).returned found) law

set_option maxRecDepth 100000 in
theorem books_balanced_resets :
    ∃ system, Run .default ⟨0, 1000⟩ .free system ∧
      (system.world.books system.trace).Balanced ∧
      system.world.metrics.totalMatchesCreated = 1 ∧
      system.world.metrics.totalPlayersCancelled = 1 ∧
      system.world.metrics.totalStaleClaimsRecovered = 5 := by
  obtain ⟨system, run, check⟩ : ∃ system,
      Run .default ⟨0, 1000⟩ .free system ∧
        decide (system.Quiet ∧ system.world.metrics.totalMatchesCreated = 1 ∧
          system.world.metrics.totalPlayersCancelled = 1 ∧
          system.world.metrics.totalStaleClaimsRecovered = 5) = true := by
    apply exists_run_of_play (arrivals 11 1500 ++
      .start (.attemptMatch 1) :: turns 11 85 ++
      .tick 1000 1000 :: .start .reaperTick :: turns 12 39 ++ turns 11 65 ++
      .start (.cancel 11) :: turns 13 6)
    decide +kernel
  obtain ⟨quiet, created, cancelled, recovered⟩ := of_decide_eq_true check
  exact ⟨system, run, books_balanced run quiet, created, cancelled, recovered⟩

end Matchmaker
