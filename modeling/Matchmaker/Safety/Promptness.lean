import Matchmaker.Concurrent.Costs
import Matchmaker.Engine.Split
import Matchmaker.Protocol.Runs

namespace Matchmaker

open Concurrent

/-! How many accesses a call makes before it returns. -/

/-- The entries that a walk over one of the stores hands to its caller. -/
def Operation.met : (operation : Operation) → operation.Result → Nat
  | .primaryIter, players => players.length
  | .indexRange .., players => players.length
  | _, _ => 0

/-- The task makes so many accesses at most, and `rate` more for every entry it
meets. -/
abbrev Makes (rate : Nat) (post : α → Prop) (task : Task α) (most : Nat) :
    Prop :=
  Costs (fun operation result => rate * Operation.met operation result) post
    task most

section Tasks

variable {rate : Nat}

theorem makes_access (operation : Operation) :
    Makes rate (fun _ => True) (access operation) 1 :=
  @costs_request memory _ operation

theorem makes_access_bind {operation : Operation}
    {rest : operation.Result → Task α} {post : α → Prop} {most : Nat}
    (after : ∀ result, Makes rate post (rest result) most) :
    Makes rate post (access operation >>= rest) (most + 1) :=
  costs_request_bind fun result => (after result).spare (Nat.le_add_right ..)

namespace Player

theorem makes_isWaiting (player : Player) :
    Makes rate (fun _ => True) player.isWaiting 1 :=
  (makes_access _).bind_pure fun _ _ => trivial

theorem makes_releaseClaim (player : Player) :
    Makes rate (fun _ => True) player.releaseClaim 3 := by
  apply makes_access_bind
  intro _
  apply makes_access_bind
  intro _
  apply makes_access_bind
  exact fun _ => trivial

theorem makes_markMatched (player : Player) :
    Makes rate (fun _ => True) player.markMatched 3 := by
  apply makes_access_bind
  intro now
  apply makes_access_bind
  intro _
  apply makes_access_bind
  exact fun _ => trivial

theorem makes_settledWaitMs (player : Player) :
    Makes rate (fun _ => True) player.settledWaitMs 2 := by
  apply makes_access_bind
  intro matchedAt
  cases matchedAt with
  | some matched => exact trivial
  | none =>
      apply makes_access_bind
      exact fun _ => trivial

end Player

theorem makes_capture (player : Player) :
    Makes rate (fun _ => True) (PlayerSnapshot.capture player) 2 :=
  player.makes_settledWaitMs.bind_pure fun _ _ => trivial

namespace PlayerPool

theorem makes_remove (id : Uuid) :
    Makes rate (fun _ => True) (PlayerPool.remove id) 2 := by
  apply makes_access_bind
  intro found
  cases found with
  | none => exact trivial
  | some player =>
      apply makes_access_bind
      exact fun _ => trivial

theorem makes_filterWaiting (admits : Player → Bool) (players : List Player) :
    Makes rate (fun _ => True) (filterWaiting admits players)
      players.length := by
  induction players with
  | nil => exact trivial
  | cons player rest induction =>
      rw [List.length_cons, Nat.add_comm]
      apply player.makes_isWaiting.bind
      intro waiting _
      exact induction.bind_pure fun _ _ => trivial

/-- A walk over the primary store that looks at every entry once. -/
theorem makes_oldestWaiting :
    Makes (rate + 1) (fun _ => True) oldestWaiting 1 := by
  apply costs_request_bind
  intro players
  apply ((makes_filterWaiting _ players).bind_pure fun _ _ => trivial).spare
  show players.length ≤ 0 + (rate + 1) * players.length
  rw [Nat.add_mul]
  omega

theorem makes_oldestWaitingExcludingRange (excludeMin excludeMax : Nat) :
    Makes (rate + 1) (fun _ => True)
      (oldestWaitingExcludingRange excludeMin excludeMax) 1 := by
  apply costs_request_bind
  intro players
  apply ((makes_filterWaiting _ players).bind_pure fun _ _ => trivial).spare
  show players.length ≤ 0 + (rate + 1) * players.length
  rw [Nat.add_mul]
  omega

theorem makes_scanEntries (entries candidates : List Player) :
    Makes rate
      (fun found => found.length ≤ candidates.length + entries.length)
      (scanEntries entries candidates) (2 * entries.length) := by
  induction entries generalizing candidates with
  | nil => exact Nat.le_refl _
  | cons player rest induction =>
      unfold scanEntries
      rw [List.length_cons, Nat.mul_succ]
      apply makes_access_bind
      intro alive
      cases alive with
      | false =>
          apply (induction candidates).mono (Nat.le_add_right ..)
          intro found bound
          omega
      | true =>
          apply @makes_access_bind _ _ (.loadState player)
          intro state
          split
          · apply (induction candidates).mono (Nat.le_refl _)
            intro found bound
            omega
          · have grown : (candidates ++ [player]).length =
                candidates.length + 1 := List.length_append
            split
            · apply costs_pure
              omega
            · apply (induction (candidates ++ [player])).mono (Nat.le_refl _)
              intro found bound
              omega

/-- Whoever asks for the candidates can go on with three accesses for each
entry of the index that was met, one of which is for the candidate. -/
theorem makes_rangeScan_bind (minRating maxRating : Nat) {post : α → Prop}
    {rest : List Player → Task α} {most : Nat}
    (after : ∀ candidates, Makes 3 post (rest candidates)
      (most + candidates.length)) :
    Makes 3 post (rangeScan minRating maxRating >>= rest) (most + 1) := by
  rw [rangeScan]
  simp only [bind_assoc, pure_bind]
  apply costs_request_bind
  intro entries
  show Costs _ _ _ (most + 3 * entries.length)
  apply (makes_scanEntries entries []).bind_le (by omega)
  intro candidates bound
  apply (after (sortCandidates candidates)).spare
  rw [sortCandidates, List.length_insertionSort]
  simp only [List.length_nil] at bound
  omega

end PlayerPool

theorem makes_elapsedMs (joinTimestamp : Instant) :
    Makes rate (fun _ => True) (elapsedMs joinTimestamp) 1 :=
  (makes_access _).bind_pure fun _ _ => trivial

theorem makes_scanBounds (skillRating : Nat) (joinTimestamp : Instant)
    (config : Config) :
    Makes rate (fun _ => True)
      (scanBounds skillRating joinTimestamp config) 1 :=
  have windows : Makes rate (fun _ => True)
      (relaxationWindow joinTimestamp config) 1 :=
    (makes_elapsedMs joinTimestamp).bind_pure fun _ _ => trivial
  windows.bind_pure fun _ _ => trivial

theorem makes_relaxationStage (joinTimestamp : Instant) (config : Config) :
    Makes rate (fun _ => True) (relaxationStage joinTimestamp config) 1 :=
  (makes_elapsedMs joinTimestamp).bind_pure fun _ _ => trivial

theorem makes_selectSeed (ctx : WorkerContext) (state : WorkerState) :
    Makes (rate + 1) (fun _ => True) (selectSeed ctx state) 3 := by
  apply PlayerPool.makes_oldestWaiting.bind_le (by decide)
  intro oldest _
  cases oldest with
  | none => exact trivial
  | some primarySeed =>
      dsimp only
      split
      · apply (makes_scanBounds _ _ _).bind_le (by decide)
        intro bounds _
        exact (PlayerPool.makes_oldestWaitingExcludingRange _ _).bind_pure
          fun _ _ => trivial
      · exact trivial

/-- A candidate costs one access, and two more if it is claimed. -/
theorem makes_claimCandidates (workerId nowMs : Nat)
    (candidates claimed : List Player) (few : claimed.length ≤ matchSize) :
    Makes rate (fun found => found.length ≤ matchSize)
      (claimCandidates workerId nowMs candidates claimed)
      (candidates.length + 2 * (matchSize - claimed.length)) := by
  induction candidates generalizing claimed with
  | nil => exact few
  | cons candidate rest induction =>
      unfold claimCandidates
      rw [List.length_cons]
      split
      · exact few
      · rename_i short
        have grown : (claimed ++ [candidate]).length = claimed.length + 1 :=
          List.length_append
        have room : (claimed ++ [candidate]).length ≤ matchSize := by omega
        have further := induction (claimed ++ [candidate]) room
        have less : rest.length + 1 + 2 * (matchSize - claimed.length) =
            rest.length + 2 * (matchSize - (claimed.length + 1)) + 2 + 1 := by
          omega
        rw [less]
        apply @makes_access_bind _ _
          (.exchange candidate (.tryClaim workerId nowMs))
        intro success
        cases success with
        | false =>
            apply (induction claimed few).spare
            omega
        | true =>
            apply @makes_access_bind _ _ (.storeClaimedBy candidate workerId)
            intro _
            apply @makes_access_bind _ _
              (.storeClaimTimestamp candidate nowMs)
            intro _
            rw [← grown]
            exact further

theorem makes_buildMatch {claimed : List Player}
    (ten : claimed.length = matchSize) :
    Makes rate (fun _ => True)
      (buildMatch claimed (exhaustiveBalance claimed)) 42 := by
  have teams := (teams_perm ten).length_eq
  rw [List.length_append] at teams
  simp only [matchSize] at ten
  apply (Costs.mapM Player.makes_settledWaitMs claimed).bind_le (by omega)
  intro waitTimesMs _
  apply (Costs.mapM makes_capture _).bind_le (by omega)
  intro teamASnapshots _
  apply (Costs.mapM makes_capture _).bind_le (by omega)
  intro teamBSnapshots _
  apply (makes_access _).bind_le (by omega)
  intro matchId _
  apply (makes_access _).bind_le (by omega)
  intro nowMs _
  exact trivial

theorem makes_updateMetricsOnSuccess (completedMatch : Match)
    (waitTimesMs : List Nat) (skillSpread : Nat) :
    Makes rate (fun _ => True)
      (updateMetricsOnSuccess completedMatch waitTimesMs skillSpread) 8 := by
  iterate 7
    apply makes_access_bind
    intro _
  exact makes_access _

theorem makes_completeMatch (ctx : WorkerContext) (state : WorkerState)
    {claimed : List Player} (ten : claimed.length = matchSize) :
    Makes rate (fun _ => True) (completeMatch ctx state claimed) 101 := by
  have length : claimed.length = 10 := ten
  apply (Costs.forM Player.makes_markMatched claimed).bind_le (by omega)
  intro _ _
  apply (makes_buildMatch ten).bind_le (by omega)
  intro built _
  have removing : ∀ player : Player, Makes rate (fun _ => True) (do
      let _ ← PlayerPool.remove player.id) 2 :=
    fun player => (PlayerPool.makes_remove player.id).bind_pure
      fun _ _ => trivial
  apply (Costs.forM removing claimed).bind_le (by omega)
  intro _ _
  apply (makes_access _).bind_le (by omega)
  intro _ _
  apply ((makes_updateMetricsOnSuccess _ _ _).bind_pure
    fun _ _ => trivial).spare
  omega

theorem makes_claimMatch (ctx : WorkerContext) (state : WorkerState)
    (seed : Player) (candidates : List Player) :
    Makes rate (fun _ => True) (claimMatch ctx state seed candidates)
      (122 + candidates.length) := by
  apply (makes_access _).bind_le (by omega)
  intro nowMs _
  apply (makes_claimCandidates ctx.workerId nowMs candidates []
    (Nat.zero_le _)).bind_le (by simp only [matchSize, List.length_nil]; omega)
  intro claimed most
  simp only [matchSize] at most
  split
  · apply (Costs.forM Player.makes_releaseClaim claimed).bind_le
      (by simp only [matchSize, List.length_nil]; omega)
    intro _ _
    apply ((makes_access _).bind_pure fun _ _ => trivial).spare
    simp only [matchSize, List.length_nil]
    omega
  · rename_i enough
    simp only [matchSize] at enough
    apply (makes_completeMatch ctx state (by
      simp only [matchSize]; omega)).spare
    simp only [matchSize, List.length_nil]
    omega

theorem makes_attemptMatch (ctx : WorkerContext) (state : WorkerState) :
    Makes 3 (fun _ => True) (attemptMatch ctx state) 129 := by
  apply (makes_selectSeed ctx state).bind_le (by decide)
  intro found _
  cases found with
  | none => exact trivial
  | some seed =>
      apply (makes_scanBounds _ _ _).bind_le (by decide)
      intro bounds _
      apply (makes_relaxationStage _ _).bind_le (by decide)
      intro stage _
      apply (makes_access _).bind_le (by decide)
      intro _ _
      apply PlayerPool.makes_rangeScan_bind
      intro candidates
      split
      · apply ((makes_access _).bind_pure fun _ _ => trivial).spare
        omega
      · exact makes_claimMatch ctx state seed candidates

theorem MatchmakerCore.makes_enqueue (id : Uuid) (skillRating : Nat) :
    Makes rate (fun _ => True) (MatchmakerCore.enqueue id skillRating) 8 := by
  unfold MatchmakerCore.enqueue
  split
  · exact trivial
  · apply makes_access_bind
    intro present
    cases present with
    | true => exact trivial
    | false =>
        iterate 7
          apply makes_access_bind
          intro _
        exact trivial

theorem MatchmakerCore.makes_cancel (id : Uuid) :
    Makes rate (fun _ => True) (MatchmakerCore.cancel id) 6 := by
  apply makes_access_bind
  intro found
  cases found with
  | none => exact trivial
  | some player =>
      apply @makes_access_bind _ _ (.exchange player .tryEvict)
      intro evicted
      cases evicted with
      | false => exact trivial
      | true =>
          apply (PlayerPool.makes_remove id).bind_le (by decide)
          intro _ _
          iterate 2
            apply (makes_access _).bind_le (by decide)
            intro _ _
          exact trivial

theorem makes_reapPlayer (nowMs staleClaimTimeoutMs : Nat) (player : Player) :
    Makes rate (fun _ => True)
      (reapPlayer nowMs staleClaimTimeoutMs player) 6 := by
  apply @makes_access_bind _ _ (.loadState player)
  intro state
  split
  · exact trivial
  · apply @makes_access_bind _ _ (.loadClaimTimestamp player)
    intro claimTs
    split
    · exact trivial
    · split
      · apply @makes_access_bind _ _ (.loadClaimedBy player)
        intro _
        apply @makes_access_bind _ _ (.exchange player (.reaperReset nowMs))
        intro success
        cases success with
        | false => exact trivial
        | true =>
            iterate 2
              apply (makes_access _).bind_le (by decide)
              intro _ _
            exact trivial
      · exact trivial

theorem makes_reapPlayers (nowMs staleClaimTimeoutMs : Nat)
    (players : List Player) (recovered : Nat) :
    Makes rate (fun _ => True)
      (reapPlayers nowMs staleClaimTimeoutMs players recovered)
      (6 * players.length) := by
  induction players generalizing recovered with
  | nil => exact trivial
  | cons player rest induction =>
      rw [List.length_cons, Nat.mul_succ, Nat.add_comm]
      apply (makes_reapPlayer nowMs staleClaimTimeoutMs player).bind
      intro reset _
      cases reset with
      | false => exact induction recovered
      | true => exact induction (recovered + 1)

theorem makes_reaperTick (staleClaimTimeoutMs : Nat) :
    Makes 6 (fun _ => True) (reaperTick staleClaimTimeoutMs) 3 := by
  apply makes_access_bind
  intro nowMs
  apply costs_request_bind
  intro players
  apply (makes_reapPlayers nowMs staleClaimTimeoutMs players 0).bind_le
  · show 6 * players.length ≤ 1 + 6 * players.length
    omega
  · intro recovered _
    split
    · apply (makes_access _).spare
      show 1 ≤ 1 + 6 * players.length - 6 * players.length
      omega
    · exact trivial

/-- The accesses that a request may take: a fixed number, and a number for each
entry its walks over the stores meet. -/
def Request.allowance : Request → Nat × Nat
  | .enqueue .. => (8, 0)
  | .cancel _ => (6, 0)
  | .attemptMatch _ => (129, 3)
  | .reaperTick => (3, 6)

theorem System.makes_program {config : Config} {system : System}
    {request : Request} {task : Task Response}
    (launched : system.program config request = some task) :
    Makes request.allowance.2 (fun _ => True) task request.allowance.1 := by
  cases request with
  | enqueue id skillRating =>
      cases launched
      exact (MatchmakerCore.makes_enqueue id skillRating).map fun _ _ => trivial
  | cancel id =>
      cases launched
      exact (MatchmakerCore.makes_cancel id).map fun _ _ => trivial
  | attemptMatch workerId =>
      obtain ⟨state, _, rfl⟩ := Option.map_eq_some_iff.mp launched
      exact (makes_attemptMatch _ state).map fun _ _ => trivial
  | reaperTick =>
      rw [System.program] at launched
      split at launched
      · cases launched
        exact (makes_reaperTick _).map fun _ _ => trivial
      · cases launched

end Tasks

/-- The accesses a call has made. -/
abbrev accessesOf (caller : Nat) (trace : Trace) : Nat :=
  performedBy caller trace

/-- The entries that the walks of a call have met. -/
abbrev metOf (caller : Nat) (trace : Trace) : Nat :=
  metBy Operation.met caller trace

/-- Whatever the other calls do meanwhile, a call makes no more accesses than
its allowance says, and it has returned by the time it has made as many. -/
theorem calls_prompt {config : Config} {clock : Clock} {system : System}
    (run : Run config clock .free system) {caller : Nat} {call : SystemCall}
    (found : system.calls[caller]? = some call) :
    accessesOf caller system.trace ≤ call.request.allowance.1 +
        call.request.allowance.2 * metOf caller system.trace ∧
      (call.program.returned? = none →
        accessesOf caller system.trace < call.request.allowance.1 +
          call.request.allowance.2 * metOf caller system.trace) := by
  have follows : system.Follows (budget memory Operation.met) Request.allowance
      fun request _ spent => True ∧ spent.made ≤
        request.allowance.1 + request.allowance.2 * spent.met :=
    Run.follows run
      (fun launched => (System.makes_program launched).obeys
        (Nat.le_of_eq (Nat.zero_add _)))
      fun _ _ _ => trivial
  have obeys := follows caller call found
  rw [budget_ghost] at obeys
  obtain ⟨request, program⟩ := call
  cases program with
  | pure response => exact ⟨obeys.2, nofun⟩
  | perform operation next => exact ⟨Nat.le_of_lt obeys.1, fun _ => obeys.1⟩

set_option maxRecDepth 100000 in
/-- An attempt on ten players, which meets each of them twice. -/
theorem calls_prompt_attempt :
    ∃ system, Run .default ⟨0, 1000⟩ .free system ∧
      accessesOf 10 system.trace ≤ 129 + 3 * metOf 10 system.trace ∧
      accessesOf 10 system.trace = 147 ∧ metOf 10 system.trace = 20 := by
  obtain ⟨system, run, check⟩ : ∃ system,
      Run .default ⟨0, 1000⟩ .free system ∧
        ((system.calls[10]?.any fun call =>
          call.request = .attemptMatch 1) &&
        decide (accessesOf 10 system.trace = 147 ∧
          metOf 10 system.trace = 20)) = true := by
    apply exists_run_of_play (arrivals 10 1500 ++
      .start (.attemptMatch 1) :: turns 10 147)
    decide +kernel
  obtain ⟨asked, counts⟩ := Bool.and_eq_true_iff.mp check
  obtain ⟨⟨request, program⟩, found, same⟩ := (Option.any_eq_true _ _).mp asked
  obtain rfl : request = .attemptMatch 1 := of_decide_eq_true same
  exact ⟨system, run, (calls_prompt run found).1, of_decide_eq_true counts⟩

end Matchmaker
