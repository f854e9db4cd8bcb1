import Matchmaker.Outcome.Fifo
import Matchmaker.Outcome.Guard

namespace Matchmaker

open Concurrent Ranking

/-! The alternate seed takes over, whatever the worker remembers. -/

variable {ctx : WorkerContext} {state last : WorkerState} {core final : Core}
  {primarySeed other : Player} {alternate : Option Player}
  {log : List (Program.Served semantics Unit MatchAttemptResult)}

/-- One failure makes a worker that is not stuck forget how it began. -/
theorem WorkerState.recordFailure_failedWith
    (fresh : ¬ state.Stuck primarySeed) :
    ∃ failures, 0 < failures ∧ failures ≤ seedRetryLimit ∧
      state.recordFailure primarySeed.id = failedWith primarySeed failures := by
  by_cases same : state.currentSeedId = some primarySeed.id
  · have few : state.consecutiveFailures < seedRetryLimit :=
      Nat.lt_of_not_le fun many => fresh ⟨same, many⟩
    refine ⟨state.consecutiveFailures + 1, Nat.succ_pos _, few, ?_⟩
    have small : state.consecutiveFailures + 1 < 2 ^ 32 := by
      simp only [seedRetryLimit] at few
      omega
    rw [failedWith_succ few, recordFailure, if_pos same,
      Nat.mod_eq_of_lt small, same]
  · refine ⟨1, Nat.one_pos, by decide, ?_⟩
    rw [failedWith_succ (by decide), recordFailure, if_neg same]

/-- A failure with another seed ends the worker's fixation. -/
theorem WorkerState.Stuck.recordFailure (stuck : state.Stuck primarySeed)
    (different : other.id ≠ primarySeed.id) :
    ¬ (state.recordFailure other.id).Stuck primarySeed := by
  have changed : state.currentSeedId ≠ some other.id := by
    rw [stuck.1]
    exact fun same => different (Option.some.inj same).symm
  rw [WorkerState.recordFailure, if_neg changed]
  exact fun again => different (Option.some.inj again.1)

theorem Core.Offers.different (consistent : Consistent core)
    (offers : core.Offers ctx primarySeed (some other)) :
    other.id ≠ primarySeed.id := by
  obtain ⟨waiting, outside⟩ := List.mem_filter.mp offers.next.1
  intro same
  obtain rfl := Core.eq_of_id consistent.toWellKeyed
    (Core.mem_waiting.mp waiting).1 (Core.mem_waiting.mp offers.eldest.1).1
    same
  have inside := @Core.mem_window_scanned ctx _ consistent _ waiting
  rw [Core.window_eq] at inside
  simp [outside] at inside

/-- The first call succeeds, or its seed has too few players around it. -/
theorem Rounds.tried (consistent : Consistent core)
    (offers : core.Offers ctx primarySeed alternate)
    (rounds : Rounds Eq ctx state core log last final)
    (long : 0 < log.length) :
    (∃ served others record, log = served :: others ∧
      served.answer = .success record) ∨
    ∃ served others seed core', log = served :: others ∧
      core.Selects Eq ctx state (some seed) ∧ ¬ core.Satisfiable ctx seed ∧
      core.Alike core' ∧
      Rounds Eq ctx (state.recordFailure seed.id) core' others last final := by
  obtain ⟨answer, state', core', others, rfl, attempts, rest⟩ :=
    Rounds.first consistent rounds long
  obtain ⟨seed, selects, succeeds, failed⟩ := round_cases offers attempts
  by_cases matched : ∃ record, answer = .success record
  · obtain ⟨record, success⟩ := matched
    exact .inl ⟨_, others, record, rfl, success⟩
  · obtain ⟨rfl, alike⟩ :=
      failed fun record success => matched ⟨record, success⟩
    rw [succeeds] at matched
    exact .inr ⟨_, others, seed, core', rfl, selects, matched, alike, rest⟩

/-- From a state that is not stuck, the eldest player is tried until it is. -/
theorem rounds_fresh (consistent : Consistent core)
    (offers : core.Offers ctx primarySeed alternate)
    (promising : core.Promising ctx primarySeed alternate)
    (fresh : ¬ state.Stuck primarySeed)
    (rounds : Rounds Eq ctx state core log last final)
    (long : seedRetryLimit < log.length) :
    ∃ served ∈ log.take (seedRetryLimit + 1),
      ∃ record, served.answer = .success record := by
  rcases Rounds.tried consistent offers rounds (Nat.zero_lt_of_lt long) with
    ⟨served, others, record, rfl, success⟩ |
      ⟨_, others, seed, core', rfl, selects, unsatisfied, alike, rest⟩
  · exact ⟨served, List.mem_cons_self .., record, success⟩
  · obtain rfl := (offers.selected consistent.toWellKeyed selects).1 fresh
    obtain ⟨failures, some, few, same⟩ :=
      WorkerState.recordFailure_failedWith fresh
    obtain ⟨left, total⟩ := Nat.exists_eq_add_of_le few
    rw [same] at rest
    rw [List.length_cons] at long
    obtain ⟨served, member, success⟩ := rounds_failed total.symm
      (alike.consistent consistent) (alike.offers offers)
      (alike.promising.mpr promising)
      (fun _ satisfiable => unsatisfied (alike.satisfiable.mp satisfiable))
      rest (by omega)
    have within : left + 1 ≤ seedRetryLimit := by omega
    exact ⟨served, List.mem_cons_of_mem _
      (List.take_subset_take_left _ within member), success⟩

/-- A stuck worker tries the alternate seed, and then the eldest player. -/
theorem rounds_stuck (consistent : Consistent core)
    (offers : core.Offers ctx primarySeed alternate)
    (promising : core.Promising ctx primarySeed alternate)
    (stuck : state.Stuck primarySeed)
    (rounds : Rounds Eq ctx state core log last final)
    (long : 1 < log.length) :
    ∃ served ∈ log.take 2, ∃ record, served.answer = .success record := by
  rcases Rounds.tried consistent offers rounds (Nat.zero_lt_of_lt long) with
    ⟨served, others, record, rfl, success⟩ |
      ⟨_, others, seed, core', rfl, selects, unsatisfied, alike, rest⟩
  · exact ⟨served, List.mem_cons_self .., record, success⟩
  obtain rfl := (offers.selected consistent.toWellKeyed selects).2 stuck
  cases alternate with
  | none =>
      refine absurd (promising.resolve_right ?_) unsatisfied
      intro found
      obtain ⟨_, ⟨⟩, _⟩ := found
  | some other =>
      -- the alternate has failed, so the promise lies in the eldest
      have eldest : core.Satisfiable ctx primarySeed := by
        apply promising.resolve_right
        intro found
        obtain ⟨_, ⟨⟩, satisfiable⟩ := found
        exact unsatisfied satisfiable
      have consistent' := alike.consistent consistent
      have offers' := alike.offers offers
      have fresh := stuck.recordFailure (offers.different consistent)
      rcases Rounds.tried consistent' offers' rest
          (Nat.lt_of_succ_lt_succ long) with
        ⟨served, others, record, rfl, success⟩ |
          ⟨_, others, seed, core'', rfl, selects', unsatisfied', _, _⟩
      · exact ⟨served, List.mem_cons_of_mem _ (List.mem_cons_self ..),
          record, success⟩
      · obtain rfl :=
          (offers'.selected consistent'.toWellKeyed selects').1 fresh
        exact absurd (alike.satisfiable.mpr eldest) unsatisfied'

/-- Four calls are enough, whatever the worker remembers, when ten players wait
within the bounds of the eldest one or of the eldest one outside those. -/
theorem rounds_taken_over (consistent : Consistent core)
    (eldest : Least Player.seedKey core.waiting (some primarySeed))
    (next : Least Player.seedKey (core.waiting.filter
      (Player.outside (core.scanned ctx primarySeed))) alternate)
    (enough : core.Satisfiable ctx primarySeed ∨
      ∃ other ∈ alternate, core.Satisfiable ctx other)
    (state : WorkerState) :
    (∃ log last final, Rounds Eq ctx state core log last final ∧
      log.length = 4) ∧
    ∀ log last final, Rounds Eq ctx state core log last final →
      4 ≤ log.length →
        ∃ served ∈ log.take 4, ∃ record, served.answer = .success record := by
  refine ⟨exists_rounds inOrder 4, ?_⟩
  intro log last final rounds long
  by_cases stuck : state.Stuck primarySeed
  · obtain ⟨served, member, success⟩ := rounds_stuck consistent
      ⟨eldest, next⟩ enough stuck rounds (by omega)
    exact ⟨served, List.take_subset_take_left _ (by decide) member, success⟩
  · exact rounds_fresh consistent ⟨eldest, next⟩ enough stuck rounds long

set_option maxRecDepth 100000 in
theorem rounds_taken_over_outlier :
    ∃ log last final,
      Rounds Eq soleWorker ⟨2 ^ 32 - 5, some 1⟩
        (.stocked ⟨0, 1000⟩ (tenBehind [0])) log last final ∧
      log.length = 4 ∧
      ∃ served ∈ log.take 4, ∃ record, served.answer = .success record := by
  obtain ⟨⟨log, last, final, rounds, length⟩, soon⟩ := rounds_taken_over
    consistent_tenBehind offers_tenBehind.eldest offers_tenBehind.next
    (.inr ⟨_, rfl, by decide +kernel⟩) ⟨2 ^ 32 - 5, some 1⟩
  exact ⟨log, last, final, rounds, length,
    soon log last final rounds (le_of_eq length.symm)⟩

end Matchmaker
