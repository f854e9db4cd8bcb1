import Mathlib.Algebra.BigOperators.Fin
import Mathlib.Algebra.BigOperators.Pi
import Matchmaker.Protocol.Books
import Matchmaker.Protocol.Composition
import Matchmaker.Protocol.Ends

namespace Matchmaker

open Concurrent

/-! What the counters lag behind while calls are in progress. -/

/-- What is counted: the metrics, beside what the published matches and the
resets of claims amount to. -/
inductive Account
  | counter (counter : Counter)
  | queueSize
  | pushed
  | resets
  | spreads
  | deltas
  | waits
deriving DecidableEq

abbrev Accrual := Account → Int

def Operation.accrues :
    (operation : Operation) → operation.Result → Account → Int
  | .exchange _ (.reaperReset _), true, .resets => 1
  | .pushHistory .., _, .pushed => 1
  | .pushHistory _ _ record _, _, .spreads => record.skillSpread
  | .pushHistory _ _ record _, _, .deltas => record.teamDelta
  | .pushHistory _ _ record _, _, .waits => matchSize * record.avgWaitMs
  | .fetchAdd counter amount, _, .counter other =>
      if other = counter then amount else 0
  | .addQueueSize amount, _, .queueSize => amount
  | _, _, _ => 0

/-- The counters agree but for some attempts that are in progress, and for some
other requests. -/
structure Paced (attempts requests : Int) (accrual : Accrual) : Prop where
  matched : accrual (.counter .totalPlayersMatched) ≤
      matchSize * accrual (.counter .totalMatchesCreated) ∧
    matchSize * accrual (.counter .totalMatchesCreated) ≤
      accrual (.counter .totalPlayersMatched) + matchSize * attempts
  spreadCount : accrual (.counter .skillSpreadCount) ≤
      accrual (.counter .totalMatchesCreated) ∧
    accrual (.counter .totalMatchesCreated) ≤
      accrual (.counter .skillSpreadCount) + attempts
  deltaCount : accrual (.counter .teamDeltaCount) ≤
      accrual (.counter .totalMatchesCreated) ∧
    accrual (.counter .totalMatchesCreated) ≤
      accrual (.counter .teamDeltaCount) + attempts
  pushed : accrual (.counter .totalMatchesCreated) ≤ accrual .pushed ∧
    accrual .pushed ≤ accrual (.counter .totalMatchesCreated) + attempts
  cycles : accrual (.counter .totalMatchesCreated) +
      accrual (.counter .matchAttemptsInsufficient) +
      accrual (.counter .matchAttemptsClaimFailed) ≤
        accrual (.counter .workerCyclesTotal) ∧
    accrual (.counter .workerCyclesTotal) ≤
      accrual (.counter .totalMatchesCreated) +
        accrual (.counter .matchAttemptsInsufficient) +
        accrual (.counter .matchAttemptsClaimFailed) + attempts
  queue : accrual (.counter .totalPlayersEnqueued) ≤
      accrual (.counter .totalPlayersCancelled) +
        accrual (.counter .totalPlayersMatched) + accrual .queueSize +
        requests ∧
    accrual (.counter .totalPlayersCancelled) +
      accrual (.counter .totalPlayersMatched) + accrual .queueSize ≤
        accrual (.counter .totalPlayersEnqueued) + matchSize * attempts
  recovered : accrual (.counter .totalStaleClaimsRecovered) ≤ accrual .resets
  spreadSum : accrual (.counter .skillSpreadSum) ≤ accrual .spreads
  deltaSum : accrual (.counter .teamDeltaSum) ≤ accrual .deltas
  waitSum : accrual (.counter .totalWaitTimeMs) ≤
    accrual .waits + (matchSize - 1) * accrual .pushed

/-- Nothing is left to be entered. -/
structure Cleared (accrual : Accrual) : Prop extends Paced 0 0 accrual where
  resets : accrual .resets ≤ accrual (.counter .totalStaleClaimsRecovered)
  spreads : accrual .spreads ≤ accrual (.counter .skillSpreadSum)
  deltas : accrual .deltas ≤ accrual (.counter .teamDeltaSum)
  waits : accrual .waits ≤ accrual (.counter .totalWaitTimeMs)

section Sums

variable {attempts requests attempts' requests' : Int}
  {accrual accrual' : Accrual}

theorem Paced.zero (first : 0 ≤ attempts) (second : 0 ≤ requests) :
    Paced attempts requests 0 := by
  constructor <;> simp only [Pi.zero_apply, matchSize] <;> omega

theorem Paced.add (first : Paced attempts requests accrual)
    (second : Paced attempts' requests' accrual') :
    Paced (attempts + attempts') (requests + requests')
      (accrual + accrual') := by
  obtain ⟨_, _, _, _, _, _, _, _, _, _⟩ := first
  obtain ⟨_, _, _, _, _, _, _, _, _, _⟩ := second
  simp only [matchSize] at *
  constructor <;> simp only [Pi.add_apply, matchSize] <;> omega

theorem Cleared.zero : Cleared 0 :=
  ⟨.zero (Int.le_refl _) (Int.le_refl _), Int.le_refl _, Int.le_refl _,
    Int.le_refl _, Int.le_refl _⟩

theorem Cleared.add (first : Cleared accrual) (second : Cleared accrual') :
    Cleared (accrual + accrual') := by
  refine ⟨first.toPaced.add second.toPaced, ?_, ?_, ?_, ?_⟩
  · exact Int.add_le_add first.resets second.resets
  · exact Int.add_le_add first.spreads second.spreads
  · exact Int.add_le_add first.deltas second.deltas
  · exact Int.add_le_add first.waits second.waits

end Sums

/-- A call in progress lags behind by no more than its share. -/
@[reducible] def accruing : Contract memory where
  Role := Int × Int
  Ghost := Accrual
  initial := 0
  next := fun accrual operation result => accrual + operation.accrues result
  Allowed := fun share accrual _ => Paced share.1 share.2 accrual
  Credible := fun _ _ => True

abbrev accrualOf (caller : Nat) (trace : Trace) : Accrual :=
  accruing.ghost caller trace

theorem accrues_access_bind {share : Int × Int} {post : α → Accrual → Prop}
    {operation : Operation} {rest : operation.Result → Task α}
    {accrual : Accrual} :
    accruing.Obeys share post (access operation >>= rest) accrual ↔
      Paced share.1 share.2 accrual ∧ ∀ result, True →
        accruing.Obeys share post (rest result)
          (accrual + operation.accrues result) :=
  Iff.rfl

/-- Operations that add to an account. -/
def Operation.Accrues : Operation → Bool
  | .exchange _ (.reaperReset _) => true
  | .pushHistory .. | .fetchAdd .. | .addQueueSize _ => true
  | _ => false

abbrev Unaccruing (task : Task α) (post : α → Prop) : Prop :=
  task.Yields (fun operation : Operation => operation.Accrues = false) post

theorem Operation.accrues_eq_zero {operation : Operation}
    (result : operation.Result) (unaccruing : operation.Accrues = false) :
    operation.accrues result = 0 := by
  funext account
  cases operation with
  | exchange player site =>
      cases site <;> first
        | rfl
        | cases unaccruing
  | _ => first
    | rfl
    | cases unaccruing

section Tasks

variable {allowance : Int × Int} {accrual : Accrual}

theorem Unaccruing.accrues {task : Task α} {post : α → Prop}
    (unaccruing : Unaccruing task post)
    (paced : Paced allowance.1 allowance.2 accrual) :
    accruing.Obeys allowance (fun value later => post value ∧ later = accrual)
      task accrual := by
  apply Contract.Obeys.of_still (fun _ _ => paced) ?_ unaccruing
  intro operation result quiet
  show accrual + operation.accrues result = accrual
  rw [Operation.accrues_eq_zero result quiet, add_zero]

theorem Reads.unaccruing {task : Task α} {post : α → Prop}
    (reads : Reads task post) : Unaccruing task post := by
  apply reads.permit
  intro operation reads
  cases operation <;> first
    | rfl
    | cases reads

theorem unaccruing_access {operation : Operation}
    (unaccruing : operation.Accrues = false) :
    Unaccruing (access operation) fun _ => True :=
  Program.yields_request unaccruing

/-- What is added for a match once it is published. -/
theorem accrues_updateMetricsOnSuccess {record : Match}
    {waitTimesMs : List Nat} {skillSpread : Nat}
    (spread : record.skillSpread = skillSpread)
    (ten : waitTimesMs.length = matchSize)
    (mean : record.avgWaitMs =
      waitTimesMs.sum % 2 ^ 64 / waitTimesMs.length)
    (teamA teamB : List Player) (limit : Nat) :
    accruing.Obeys (1, 0) (fun _ later => Cleared later)
      (updateMetricsOnSuccess record waitTimesMs skillSpread)
      (0 + Operation.accrues (.fetchAdd .workerCyclesTotal 1) () +
        Operation.accrues (.pushHistory teamA teamB record limit) ()) := by
  subst spread
  rw [ten] at mean
  have waited : matchSize * record.avgWaitMs ≤ waitTimesMs.sum % 2 ^ 64 ∧
      waitTimesMs.sum % 2 ^ 64 ≤
        matchSize * record.avgWaitMs + (matchSize - 1) := by
    rw [mean]
    simp only [matchSize]
    omega
  unfold updateMetricsOnSuccess
  generalize waitTimesMs.sum % 2 ^ 64 = waitTotal at waited
  simp only [matchSize] at waited
  iterate 8
    refine accrues_access_bind.mpr ⟨?_, fun _ _ => ?_⟩
    · constructor <;> simp [Operation.accrues, matchSize]
      omega
  refine ⟨?_, ?_, ?_, ?_, ?_⟩
  · constructor <;> simp [Operation.accrues, matchSize]
    omega
  · simp [Operation.accrues]
  · simp [Operation.accrues]
  · simp [Operation.accrues]
  · simp [Operation.accrues, matchSize]
    omega

/-- An attempt that has looked for candidates, and the match it may publish. -/
theorem paced_cycle : Paced 1 0
    (0 + Operation.accrues (.fetchAdd .workerCyclesTotal 1) ()) := by
  constructor <;> simp [Operation.accrues, matchSize]

theorem accrues_completeMatch (ctx : WorkerContext) (state : WorkerState)
    {claimed : List Player} (ten : claimed.length = matchSize) :
    accruing.Obeys (1, 0) (fun _ later => Cleared later)
      (completeMatch ctx state claimed)
      (0 + Operation.accrues (.fetchAdd .workerCyclesTotal 1) ()) := by
  have marking : Unaccruing (forM claimed Player.markMatched) _ :=
    Program.Yields.forM (fun player =>
      player.yields_markMatched rfl (fun _ => rfl) rfl) claimed
  apply (marking.accrues paced_cycle).bind
  intro _ _ found
  obtain ⟨_, rfl⟩ := found
  apply ((reads_built claimed _).unaccruing.accrues paced_cycle).bind
  intro outcome _ found
  obtain ⟨built, rfl⟩ := found
  have removing : Unaccruing (forM claimed fun player => do
      let _ ← PlayerPool.remove player.id) _ :=
    yields_removing claimed (fun _ => rfl) fun _ => rfl
  apply (removing.accrues paced_cycle).bind
  intro _ _ found
  obtain ⟨_, rfl⟩ := found
  refine accrues_access_bind.mpr ⟨paced_cycle, fun _ _ => ?_⟩
  apply (accrues_updateMetricsOnSuccess built.recorded
    (built.waits.trans ten) built.mean _ _ _).bind
  exact fun _ _ cleared => cleared

theorem accrues_attemptMatch (ctx : WorkerContext) (state : WorkerState) :
    accruing.Obeys (1, 0) (fun _ later => Cleared later)
      (attemptMatch ctx state) (0 : Accrual) := by
  have fresh : Paced 1 0 0 := .zero (by decide) (by decide)
  apply ((reads_selectSeed ctx state).unaccruing.accrues fresh).bind
  intro found _ unmoved
  obtain ⟨_, rfl⟩ := unmoved
  cases found with
  | none => exact .zero
  | some seed =>
      apply ((reads_scanBounds _ _ _).unaccruing.accrues fresh).bind
      intro bounds _ unmoved
      obtain ⟨_, rfl⟩ := unmoved
      apply ((reads_relaxationStage _ _).unaccruing.accrues fresh).bind
      intro stage _ unmoved
      obtain ⟨_, rfl⟩ := unmoved
      refine accrues_access_bind.mpr ⟨fresh, fun _ _ => ?_⟩
      apply ((PlayerPool.reads_rangeScan _ _).unaccruing.accrues
        paced_cycle).bind
      intro candidates _ unmoved
      obtain ⟨_, rfl⟩ := unmoved
      dsimp only
      split
      · refine accrues_access_bind.mpr ⟨paced_cycle, fun _ _ => ?_⟩
        refine ⟨?_, ?_, ?_, ?_, ?_⟩
        · constructor <;> simp [Operation.accrues, matchSize]
        all_goals simp [Operation.accrues]
      · apply ((reads_access rfl).unaccruing.accrues paced_cycle).bind
        intro nowMs _ unmoved
        obtain ⟨_, rfl⟩ := unmoved
        have claiming : Unaccruing
            (claimCandidates ctx.workerId nowMs candidates []) _ :=
          yields_claimCandidates
            (fun player => player.yields_tryClaim rfl rfl rfl)
            candidates (Nat.zero_le _)
        apply (claiming.accrues paced_cycle).bind
        intro claimed _ found
        obtain ⟨⟨bound, _⟩, rfl⟩ := found
        split
        · have releasing : Unaccruing (forM claimed Player.releaseClaim) _ :=
            Program.Yields.forM (fun player =>
              player.yields_releaseClaim rfl rfl rfl) claimed
          apply (releasing.accrues paced_cycle).bind
          intro _ _ unmoved
          obtain ⟨_, rfl⟩ := unmoved
          refine accrues_access_bind.mpr ⟨paced_cycle, fun _ _ => ?_⟩
          refine ⟨?_, ?_, ?_, ?_, ?_⟩
          · constructor <;> simp [Operation.accrues, matchSize]
          all_goals simp [Operation.accrues]
        · exact accrues_completeMatch ctx state (by omega)

theorem MatchmakerCore.accrues_enqueue (id : Uuid) (skillRating : Nat) :
    accruing.Obeys (0, 1) (fun _ later => Cleared later)
      (MatchmakerCore.enqueue id skillRating) (0 : Accrual) := by
  have fresh : Paced 0 1 0 := .zero (by decide) (by decide)
  unfold MatchmakerCore.enqueue
  split
  · exact .zero
  · refine accrues_access_bind.mpr ⟨fresh, ?_⟩
    intro present _
    cases present with
    | true => exact .zero
    | false =>
        iterate 7
          refine accrues_access_bind.mpr ⟨?_, fun _ _ => ?_⟩
          · constructor <;> simp [Operation.accrues, matchSize]
        refine ⟨?_, ?_, ?_, ?_, ?_⟩
        · constructor <;> simp [Operation.accrues, matchSize]
        all_goals simp [Operation.accrues]

theorem MatchmakerCore.accrues_cancel (id : Uuid) :
    accruing.Obeys (0, 1) (fun _ later => Cleared later)
      (MatchmakerCore.cancel id) (0 : Accrual) := by
  have fresh : Paced 0 1 0 := .zero (by decide) (by decide)
  apply ((reads_access rfl).unaccruing.accrues fresh).bind
  intro found _ unmoved
  obtain ⟨_, rfl⟩ := unmoved
  cases found with
  | none => exact .zero
  | some player =>
      have evicting : Unaccruing player.tryEvict fun _ => True :=
        unaccruing_access rfl
      apply (evicting.accrues fresh).bind
      intro evicted _ unmoved
      obtain ⟨_, rfl⟩ := unmoved
      cases evicted with
      | false => exact .zero
      | true =>
          have removing : Unaccruing (PlayerPool.remove id) _ :=
            PlayerPool.yields_remove rfl fun _ => rfl
          apply (removing.accrues fresh).bind
          intro _ _ unmoved
          obtain ⟨_, rfl⟩ := unmoved
          iterate 2
            refine accrues_access_bind.mpr ⟨?_, fun _ _ => ?_⟩
            · constructor <;> simp [Operation.accrues, matchSize]
          refine ⟨?_, ?_, ?_, ?_, ?_⟩
          · constructor <;> simp [Operation.accrues, matchSize]
          all_goals simp [Operation.accrues]

/-- The accounts of a scan that has reset so many claims and not said so. -/
def resetAccrual (recovered : Nat) : Accrual
  | .resets => recovered
  | _ => 0

theorem paced_resetAccrual (recovered : Nat) :
    Paced 0 0 (resetAccrual recovered) := by
  constructor <;> simp [resetAccrual, matchSize]

theorem resetAccrual_zero : resetAccrual 0 = 0 := by
  funext account
  cases account <;> rfl

theorem accrues_reapPlayer (nowMs staleClaimTimeoutMs : Nat)
    (player : Player) (recovered : Nat) :
    accruing.Obeys (0, 0)
      (fun reset later => later = resetAccrual (recovered + reset.toNat))
      (reapPlayer nowMs staleClaimTimeoutMs player)
      (resetAccrual recovered) := by
  have paced := paced_resetAccrual recovered
  have stay : ∀ operation : Operation, ∀ result, operation.Accrues = false →
      resetAccrual recovered + operation.accrues result =
        resetAccrual recovered := by
    intro operation result quiet
    rw [Operation.accrues_eq_zero result quiet, add_zero]
  refine accrues_access_bind.mpr ⟨paced, fun state _ => ?_⟩
  rw [stay _ _ rfl]
  split
  · rfl
  · refine accrues_access_bind.mpr ⟨paced, fun claimTs _ => ?_⟩
    rw [stay _ _ rfl]
    dsimp only
    split
    · rfl
    · split
      · refine accrues_access_bind.mpr ⟨paced, fun _ _ => ?_⟩
        rw [stay _ _ rfl]
        refine accrues_access_bind.mpr ⟨paced, ?_⟩
        intro success _
        cases success with
        | false =>
            have unmoved : Operation.accrues
                (.exchange player (.reaperReset nowMs)) false = 0 := by
              funext account
              rfl
            rw [unmoved, add_zero]
            rfl
        | true =>
            have moved : resetAccrual recovered + Operation.accrues
                (.exchange player (.reaperReset nowMs)) true =
                resetAccrual (recovered + 1) := by
              funext account
              cases account <;> rfl
            rw [moved]
            have storing : Unaccruing (do
                access (.storeClaimedBy player 0)
                access (.storeClaimTimestamp player 0)
                return true) fun reset => reset = true := by
              apply (unaccruing_access rfl).bind
              intro _ _
              apply (unaccruing_access rfl).bind
              exact fun _ _ => Program.yields_pure rfl
            apply (storing.accrues (paced_resetAccrual _)).mono
            intro reset later found
            rw [found.1, found.2]
            rfl
      · rfl

theorem accrues_reapPlayers (nowMs staleClaimTimeoutMs : Nat)
    (players : List Player) (recovered : Nat) :
    accruing.Obeys (0, 0) (fun total later => later = resetAccrual total)
      (reapPlayers nowMs staleClaimTimeoutMs players recovered)
      (resetAccrual recovered) := by
  induction players generalizing recovered with
  | nil => rfl
  | cons player rest induction =>
      apply (accrues_reapPlayer nowMs staleClaimTimeoutMs player recovered).bind
      intro reset _ moved
      subst moved
      cases reset with
      | false => exact induction recovered
      | true => exact induction (recovered + 1)

theorem accrues_reaperTick (staleClaimTimeoutMs : Nat) :
    accruing.Obeys (0, 0) (fun _ later => Cleared later)
      (reaperTick staleClaimTimeoutMs) (0 : Accrual) := by
  have fresh : Paced 0 0 0 := .zero (by decide) (by decide)
  apply ((reads_access rfl).unaccruing.accrues fresh).bind
  intro nowMs _ unmoved
  obtain ⟨_, rfl⟩ := unmoved
  apply ((reads_access rfl).unaccruing.accrues fresh).bind
  intro players _ unmoved
  obtain ⟨_, rfl⟩ := unmoved
  rw [← resetAccrual_zero]
  apply (accrues_reapPlayers nowMs staleClaimTimeoutMs players 0).bind
  intro recovered _ moved
  subst moved
  split
  · refine accrues_access_bind.mpr ⟨paced_resetAccrual _, fun _ _ => ?_⟩
    refine ⟨?_, ?_, ?_, ?_, ?_⟩
    · constructor <;> simp [resetAccrual, Operation.accrues, matchSize]
    all_goals simp [resetAccrual, Operation.accrues]
  · rename_i none
    obtain rfl : recovered = 0 := by omega
    rw [resetAccrual_zero]
    exact .zero

/-- By what a request may have the counters lag behind, before it returns. -/
def Request.share : Request → Int × Int
  | .attemptMatch _ => (1, 0)
  | .enqueue .. | .cancel _ => (0, 1)
  | .reaperTick => (0, 0)

theorem System.accrues_program {config : Config} {system : System}
    {request : Request} {task : Task Response}
    (launched : system.program config request = some task) :
    accruing.Obeys request.share (fun _ later => Cleared later) task 0 := by
  cases request with
  | enqueue id skillRating =>
      cases launched
      exact (MatchmakerCore.accrues_enqueue id skillRating).map
        fun _ _ cleared => cleared
  | cancel id =>
      cases launched
      exact (MatchmakerCore.accrues_cancel id).map fun _ _ cleared => cleared
  | attemptMatch workerId =>
      obtain ⟨state, _, rfl⟩ := Option.map_eq_some_iff.mp launched
      exact (accrues_attemptMatch _ state).map fun _ _ cleared => cleared
  | reaperTick =>
      rw [System.program] at launched
      split at launched
      · cases launched
        exact (accrues_reaperTick _).map fun _ _ cleared => cleared
      · cases launched

end Tasks

/-- The records of the published matches, latest first. -/
def publishedRecords (trace : Trace) : List Match :=
  (publications trace).map (·.record)

/-- What the accounts hold, by the memory and by what was done. -/
def Core.accrual (core : Core) (trace : Trace) : Accrual
  | .counter counter => core.metrics.total counter
  | .queueSize => core.metrics.currentQueueSize
  | .pushed => (publishedRecords trace).length
  | .resets => (resets trace).length
  | .spreads => (((publishedRecords trace).map (·.skillSpread)).sum : Nat)
  | .deltas => (((publishedRecords trace).map (·.teamDelta)).sum : Nat)
  | .waits =>
      (matchSize * ((publishedRecords trace).map (·.avgWaitMs)).sum : Nat)

/-- The share of a call in what the counters lag behind. -/
def shareOf (call : SystemCall) : Int × Int :=
  if call.program.returned?.isSome then 0 else call.request.share

/-- The attempts and the requests from outside that have not returned. -/
def System.inProgress (system : System) : Int × Int :=
  (system.calls.map shareOf).sum

section Run

variable {config : Config} {clock : Clock} {discipline : Discipline}
  {system : System}

theorem Run.accrual_perform {caller : Nat} {operation : Operation}
    {choice : Choice} :
    (system.world.perform choice operation).2.accrual
        (system.eventOf caller choice operation :: system.trace) =
      system.world.accrual system.trace +
        operation.accrues (system.world.perform choice operation).1 := by
  funext account
  rw [Pi.add_apply]
  cases operation with
  | exchange player site =>
      simp only [Core.perform, Core.exchange, System.eventOf]
      split <;> cases site <;> cases account <;>
        exact (Int.add_zero _).symm
  | pushHistory teamA teamB record limit =>
      cases account with
      | counter | queueSize | resets => exact (Int.add_zero _).symm
      | pushed => rfl
      | _ =>
          simp only [Core.accrual, Operation.accrues, publishedRecords,
            publications_push, List.map_cons, List.sum_cons, Nat.mul_add]
          omega
  | fetchAdd counter amount =>
      cases account with
      | counter other =>
          simp only [Core.accrual, Operation.accrues, Core.perform,
            Metrics.total_fetchAdd]
          split <;> simp
      | queueSize => cases counter <;> exact (Int.add_zero _).symm
      | _ => exact (Int.add_zero _).symm
  | addQueueSize amount =>
      cases account with
      | counter counter =>
          cases counter <;> exact (Int.add_zero _).symm
      | queueSize => rfl
      | _ => exact (Int.add_zero _).symm
  | _ => cases account <;> exact (Int.add_zero _).symm

theorem Run.accrual (run : Run config clock discipline system) :
    system.world.accrual system.trace =
      ∑ caller ∈ Finset.range system.calls.length,
        accrualOf caller system.trace := by
  refine Run.invariant run (fun core trace => ∀ bound,
    (∀ event ∈ trace, event.caller < bound) → core.accrual trace =
      ∑ caller ∈ Finset.range bound, accrualOf caller trace) ?_
    (fun _ _ holds => holds) ?_ _ (Run.sound run).traced
  · intro bound _
    have empty : (Core.new clock).accrual [] = 0 := by
      funext account
      cases account with
      | counter counter => cases counter <;> rfl
      | _ => rfl
    rw [empty]
    exact (Finset.sum_eq_zero fun _ _ => rfl).symm
  · intro system mover request operation choice run performing holds bound
      inside
    rw [Run.accrual_perform,
      holds bound fun event earlier => inside event (.tail _ earlier)]
    exact (@Contract.sum_ghost_cons _ accruing Accrual _ id _ _ _ _
      (inside _ (.head _)) rfl).symm

theorem Run.follows_accruing (run : Run config clock discipline system) :
    system.Follows accruing Request.share fun _ _ later => Cleared later :=
  Run.follows run System.accrues_program fun _ _ _ => trivial

theorem Run.paced_call (run : Run config clock discipline system)
    {caller : Nat} {call : SystemCall}
    (found : system.calls[caller]? = some call) :
    Paced (shareOf call).1 (shareOf call).2
      (accrualOf caller system.trace) := by
  obtain ⟨request, program⟩ := call
  have obeys := Run.follows_accruing run caller _ found
  cases program with
  | pure response => exact obeys.toPaced
  | perform operation next => exact obeys.1

theorem sum_map_eq_sum_range {M : Type} [AddCommMonoid M] (measure : α → M)
    (items : List α) :
    (items.map measure).sum = ∑ position ∈ Finset.range items.length,
      (items[position]?.map measure).getD 0 := by
  rw [Finset.sum_range, ← Fin.sum_univ_fun_getElem]
  apply Finset.sum_congr rfl
  intro position _
  rw [List.getElem?_eq_getElem position.isLt]
  rfl

theorem Paced.sum {share : Nat → Int × Int} {accrual : Nat → Accrual}
    {bound : Nat} (each : ∀ caller < bound,
      Paced (share caller).1 (share caller).2 (accrual caller)) :
    Paced (∑ caller ∈ Finset.range bound, share caller).1
      (∑ caller ∈ Finset.range bound, share caller).2
      (∑ caller ∈ Finset.range bound, accrual caller) := by
  induction bound with
  | zero => exact .zero (Int.le_refl _) (Int.le_refl _)
  | succ bound induction =>
      rw [Finset.sum_range_succ, Finset.sum_range_succ]
      apply (induction fun caller below => each caller (by omega)).add
      exact each bound (by omega)

/-- In every state the counters agree up to what the calls in progress have
still to enter. -/
theorem Run.paced (run : Run config clock discipline system) :
    Paced system.inProgress.1 system.inProgress.2
      (system.world.accrual system.trace) := by
  rw [Run.accrual run, System.inProgress, sum_map_eq_sum_range]
  apply Paced.sum
  intro caller below
  rw [List.getElem?_eq_getElem below]
  exact Run.paced_call run (List.getElem?_eq_getElem below)

theorem Run.cleared (run : Run config clock discipline system)
    (quiet : system.Quiet) : Cleared (system.world.accrual system.trace) := by
  rw [Run.accrual run]
  apply Finset.sum_induction _ _ (fun _ _ => Cleared.add) .zero
  intro caller member
  obtain ⟨⟨request, program⟩, found⟩ :
      ∃ call, system.calls[caller]? = some call :=
    ⟨_, List.getElem?_eq_getElem (Finset.mem_range.mp member)⟩
  have returned := quiet _ (List.mem_of_getElem? found)
  cases program with
  | perform operation next => cases returned
  | pure response => exact (Run.follows_accruing run).returned found

end Run

end Matchmaker
