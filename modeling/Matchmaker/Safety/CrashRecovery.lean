import Matchmaker.Protocol.Candidates
import Matchmaker.Protocol.Ratings
import Matchmaker.Protocol.Stamps
import Matchmaker.Sequential.Reaping

namespace Matchmaker

open Concurrent

/-! A worker stops for good in the middle of an attempt, and the Reaper ticks.
It looks only at claimed players whose claim timestamp is not zero. -/

/-- A claim finds the claim timestamp cleared, and a timestamp is written only
while no claim but the writer's own is in force. -/
def Discipline.tidyStamps : Discipline where
  starts := fun _ _ => true
  performs := fun system caller operation =>
    match operation with
    | .exchange player (.tryClaim ..) =>
        (system.world.cells player).state ≠ .waiting ||
          (system.world.cells player).claimTimestamp = 0
    | .storeClaimTimestamp player _ =>
        (claimOf player system.trace).all (·.caller = caller)
    | _ => true

/-- No call spoils the claims or the entries of another. -/
abbrev Discipline.orderly : Discipline :=
  .both (.both .keptClaims .absentInserts)
    (.both .ownEntries (.both .lateRemovals .tidyStamps))

/-- Every other attempt has returned. -/
def OnlyWorker (system : System) (caller : Nat) : Prop :=
  ∀ other workerId program, other ≠ caller →
    system.calls[other]? = some ⟨.attemptMatch workerId, program⟩ →
    program.returned?.isSome

/-- The claims of the call are older than the timeout, whenever after `later`
the clock is read. -/
def Overdue (config : Config) (passes : Clock → Clock → Prop) (later : Clock)
    (system : System) (caller : Nat) : Prop :=
  ∀ player workerId claimedAt,
    ⟨caller, player, .tryClaim workerId claimedAt⟩ ∈ transfers system.trace →
    ∀ moment, passes later moment →
      claimedAt + config.staleClaimTimeoutMs < moment.unixMs

namespace Core

def InBoth (core : Core) (player : Player) : Prop :=
  core.primary.lookup player.id = some player ∧
    core.index[player.ratingKey]? = some player

def InNeither (core : Core) (player : Player) : Prop :=
  core.primary.lookup player.id ≠ some player ∧
    core.index[player.ratingKey]? ≠ some player

/-- The player is free again, or in a published match. -/
def Recovers (core : Core) (trace : Trace) (player : Player) : Prop :=
  (core.cells player).state = .waiting ∧ core.InBoth player ∨
    player ∈ published trace ∧ core.InNeither player

theorem InBoth.not_inNeither {core : Core} {player : Player}
    (both : core.InBoth player) : ¬ core.InNeither player :=
  fun neither => neither.1 both.1

end Core

/-- The owner of a claim has stored its timestamp and not cleared it. -/
def Phase.Stamped : Phase → Bool
  | .held .. | .unclaiming | .marking => true
  | _ => false

/-- The attempt may stop here as far as the player is concerned: its claim on
the player, if it is in force, shows a timestamp; it has published the player if
it has matched it; and nobody has cancelled the player. -/
structure SafeStop (system : System) (caller : Nat) (player : Player) :
    Prop where
  stamped : ∀ claim, claimOf player system.trace = some claim →
    claim.claimedAt ≠ 0 ∧ (phaseOf caller player system.trace).Stamped
  published : phaseOf caller player system.trace = .marked →
    player ∈ (progressOf caller system.trace).published
  kept : (system.world.cells player).state ≠ .evicted

instance (system : System) (caller : Nat) (player : Player) :
    Decidable (SafeStop system caller player) :=
  decidable_of_iff ((∀ claim ∈ claimOf player system.trace,
        claim.claimedAt ≠ 0 ∧
          (phaseOf caller player system.trace).Stamped) ∧
      (phaseOf caller player system.trace = .marked →
        player ∈ (progressOf caller system.trace).published) ∧
      (system.world.cells player).state ≠ .evicted)
    ⟨fun ⟨stamped, published, kept⟩ => ⟨stamped, published, kept⟩,
      fun ⟨stamped, published, kept⟩ => ⟨stamped, published, kept⟩⟩

theorem Phase.tells_claimTimestamp {claim : Claim} {phase : Phase} :
    phase.tells claim .claimTimestamp =
      if phase.Stamped then claim.claimedAt else 0 := by
  cases phase <;> rfl

theorem Core.state_reap {core : Core} {nowMs staleClaimTimeoutMs : Nat}
    {player : Player} :
    ((core.reap nowMs staleClaimTimeoutMs).cells player).state =
      if player ∈ core.primary.players ∧
          core.stale nowMs staleClaimTimeoutMs player
      then .waiting else (core.cells player).state := by
  show ((core.rewrite (core.primary.players.filter
    (core.stale nowMs staleClaimTimeoutMs))
      fun _ => .recover).cells player).state = _
  split
  · rename_i stale
    rw [Core.cells_rewrite_mem (List.mem_filter.mpr stale)]
    rfl
  · rename_i fresh
    rw [Core.cells_rewrite_not_mem
      fun member => fresh (List.mem_filter.mp member)]

/-- The call has claimed the player some time. -/
def Phase.Attempts : Phase → Bool
  | .idle | .evicted | .suspected _ | .reset | .clearing | .cleared => false
  | _ => true

theorem Phase.attempts_of_active {phase : Phase} (active : phase.Active) :
    phase.Attempts := by
  cases phase <;> first
    | rfl
    | cases active

theorem Moves.attempts {player : Player} {operation : Operation}
    {result : operation.Result} {before after : Phase}
    (moved : Moves player operation result before after)
    (attempts : after.Attempts) :
    before.Attempts ∨
      ∃ workerId nowMs, operation = .exchange player (.tryClaim workerId nowMs) := by
  cases moved with
  | claim workerId nowMs => exact .inr ⟨workerId, nowMs, rfl⟩
  | stay => exact .inl attempts
  | _ => first
    | exact .inl rfl
    | cases attempts

section Run

variable {config : Config} {clock : Clock} {discipline : Discipline}
  {system : System} {caller : Nat} {player : Player}

theorem Run.attempts (run : Run config clock discipline system)
    (attempts : (phaseOf caller player system.trace).Attempts) :
    ∃ workerId program,
      system.calls[caller]? = some ⟨.attemptMatch workerId, program⟩ := by
  obtain ⟨⟨_, program⟩, found, workerId, rfl⟩ := @Run.requested _ _ _ _ run
    (fun progress => (progress.phase player).Attempts)
    (fun request => ∃ workerId, request = .attemptMatch workerId) nofun
    (by
      intro system caller request operation choice performing attempts
      rcases (performing.moves player choice).attempts attempts with
        before | ⟨workerId, nowMs, rfl⟩
      · exact .inl before
      · have role : request.role config = .attemptMatch workerId :=
          performing.allowed.1
        cases request with
        | attemptMatch other => exact .inr ⟨other, rfl⟩
        | _ => cases role)
    caller attempts
  exact ⟨workerId, program, found⟩

theorem OnlyWorker.rested (alone : OnlyWorker system caller)
    (run : Run config clock discipline system) {other : Nat}
    (different : other ≠ caller)
    (attempts : (phaseOf other player system.trace).Attempts) :
    Rested (progressOf other system.trace) := by
  obtain ⟨workerId, program, found⟩ := Run.attempts run attempts
  exact Run.rested run found (alone other workerId program different found)

theorem OnlyWorker.owner (alone : OnlyWorker system caller)
    (run : Run config clock discipline system) {claim : Claim}
    (inForce : claimOf player system.trace = some claim) :
    claim.caller = caller := by
  by_contra different
  have active := (Run.carries run inForce).active
  have rested := alone.rested run different (Phase.attempts_of_active active)
  rw [rested.inactive player] at active
  cases active

theorem Run.matched_iff (run : Run config clock discipline system) :
    (system.world.cells player).state = .matched ↔
      ∃ caller, ⟨caller, player, .markMatched⟩ ∈ transfers system.trace := by
  constructor
  · intro matched
    obtain ⟨⟨caller, _, site⟩, member, rfl, reached⟩ :=
      Run.transfer_of_state run matched nofun
    cases site with
    | markMatched => exact ⟨caller, member⟩
    | _ => cases reached
  · intro found
    obtain ⟨caller, member⟩ := found
    rw [Run.state run, Run.final run member (.inl rfl)]
    rfl

theorem Run.final_of_settles (run : Run config clock discipline system)
    (settles : Settles caller player system.trace) :
    (system.world.cells player).state = .matched ∨
      (system.world.cells player).state = .evicted := by
  rcases settles with member | member
  · exact .inl ((Run.matched_iff run).mpr ⟨caller, member⟩)
  · right
    rw [Run.state run, Run.final run member (.inr rfl)]
    rfl

theorem Run.stamped (run : Run config clock .tidyStamps system)
    (player : Player) :
    Tells (fun _ => true) .claimTimestamp player system.world
      system.trace := by
  apply Run.invariant run (Tells (fun _ => true) .claimTimestamp player)
    (fun _ => nofun) (fun _ _ holds => holds)
  intro system caller request operation choice run performing tells
  have permitted := performing.permitted
  refine tells.perform (fun _ _ => .inl rfl) run performing ?_ ?_ choice
  · rintro workerId nowMs rfl waiting _
    simpa [Discipline.tidyStamps, waiting, PlayerCells.field] using permitted
  · intro claim inForce _ stores
    cases operation with
    | storeClaimTimestamp other value =>
        cases stores
        have own : claim.caller = caller := by
          simpa [Discipline.tidyStamps, inForce] using permitted
        exact own.symm
    | _ => cases stores

end Run

section Orderly

variable {config : Config} {clock : Clock} {system : System} {caller : Nat}
  {player : Player}

theorem Run.inBoth (run : Run config clock .orderly system)
    (member : player ∈ indexed system.trace)
    (unsettled : ∀ caller, ¬ Settles caller player system.trace) :
    system.world.InBoth player := by
  have found : system.world.primary.lookup player.id = some player := by
    refine (Run.lookup_iff (Run.right (Run.left run))).mpr
      ⟨rfl, Run.stored_of_indexed run member, ?_⟩
    intro taken
    obtain ⟨⟨remover, _⟩, removal, rfl⟩ := List.mem_map.mp taken
    exact unsettled remover ((Run.removals (Run.left run)).done removal)
  exact ⟨found, Run.index_complete (Run.middle run) member found⟩

theorem Run.inNeither (run : Run config clock .orderly system)
    (member : player ∈ published system.trace) :
    system.world.InNeither player := by
  obtain ⟨taken, unindexed⟩ := Run.published_removed (Run.left run) member
  constructor
  · intro found
    exact ((Run.lookup_iff (Run.right (Run.left run))).mp found).2.2 taken
  · intro found
    exact Run.index_sound (Run.left (Run.right (Run.right run))) found unindexed

theorem Run.matched_of_published (run : Run config clock .keptClaims system)
    (member : player ∈ published system.trace) :
    (system.world.cells player).state = .matched := by
  obtain ⟨publication, among, inTeams⟩ := List.mem_flatMap.mp member
  exact (Run.matched_iff run).mpr
    ⟨_, Run.publishesOwn run publication among player inTeams⟩

theorem Run.published_iff (run : Run config clock .keptClaims system)
    (marked : ⟨caller, player, .markMatched⟩ ∈ transfers system.trace) :
    player ∈ published system.trace ↔
      player ∈ (progressOf caller system.trace).published := by
  constructor
  · intro member
    obtain ⟨publication, among, inTeams⟩ := List.mem_flatMap.mp member
    have own := Run.publishesOwn run publication among player inTeams
    have same : publication.caller = caller := congrArg Transfer.caller
      (Run.final_unique run own marked (.inl rfl) (.inl rfl) rfl)
    rw [← same, (Run.recorded run among).players]
    exact inTeams
  · intro member
    obtain ⟨publication, among, _, inTeams⟩ := Run.publication_of run member
    exact List.mem_flatMap.mpr ⟨publication, among, inTeams⟩

theorem Run.unsettled_of_state (run : Run config clock .orderly system)
    (current : (system.world.cells player).state = .waiting ∨
      (system.world.cells player).state = .claimed) (other : Nat) :
    ¬ Settles other player system.trace := by
  intro settles
  rcases Run.final_of_settles run settles with final | final <;>
    rcases current with current | current <;>
      rw [current] at final <;> cases final

theorem Run.safeStop_of_waiting (run : Run config clock .orderly system)
    (waiting : (system.world.cells player).state = .waiting) :
    SafeStop system caller player := by
  refine ⟨?_, ?_, ?_⟩
  · intro claim inForce
    rw [(Run.claimed_iff run).mpr ⟨claim, inForce⟩] at waiting
    cases waiting
  · intro marked
    exact absurd (.inl ((Run.settled_iff run rfl).mp marked))
      (Run.unsettled_of_state run (.inl waiting) caller)
  · rw [waiting]
    exact nofun

theorem Run.safeStop_of_claim (run : Run config clock .orderly system)
    {claim : Claim} (inForce : claimOf player system.trace = some claim) :
    SafeStop system caller player ↔
      claim.claimedAt ≠ 0 ∧ (phaseOf caller player system.trace).Stamped := by
  have claimed := (Run.claimed_iff run).mpr ⟨claim, inForce⟩
  constructor
  · exact fun safe => safe.stamped claim inForce
  · intro stamped
    refine ⟨?_, ?_, ?_⟩
    · intro claim' inForce'
      rw [inForce] at inForce'
      cases inForce'
      exact stamped
    · intro marked
      rw [marked] at stamped
      cases stamped.2
    · rw [claimed]
      exact nofun

theorem OnlyWorker.safeStop_of_marked (alone : OnlyWorker system caller)
    (run : Run config clock .orderly system) {other : Nat}
    (marked : ⟨other, player, .markMatched⟩ ∈ transfers system.trace) :
    SafeStop system caller player ↔ player ∈ published system.trace := by
  have kept := Run.left (Run.left run)
  have matched := (Run.matched_iff run).mpr ⟨other, marked⟩
  have phase : phaseOf other player system.trace = .marked :=
    (Run.settled_iff run rfl).mpr marked
  rw [Run.published_iff kept marked]
  constructor
  · intro safe
    by_cases same : other = caller
    · subst same
      exact safe.published phase
    · have attempts : (phaseOf other player system.trace).Attempts := by
        rw [phase]
        rfl
      exact (alone.rested run same attempts).published player phase
  · intro listed
    refine ⟨?_, ?_, ?_⟩
    · intro claim inForce
      rw [(Run.claimed_iff run).mpr ⟨claim, inForce⟩] at matched
      cases matched
    · intro own
      have same : other = caller := congrArg Transfer.caller
        (Run.final_unique run marked ((Run.settled_iff run rfl).mp own)
          (.inl rfl) (.inl rfl) rfl)
      rw [← same]
      exact listed
    · rw [matched]
      exact nofun

/-- To the Reaper the claim in force looks stale exactly when its timestamp is
stored. -/
theorem OnlyWorker.stale_iff (alone : OnlyWorker system caller)
    (run : Run config clock .orderly system) {claim : Claim}
    (inForce : claimOf player system.trace = some claim)
    {staleClaimTimeoutMs nowMs : Nat}
    (old : claim.claimedAt + staleClaimTimeoutMs < nowMs) :
    system.world.stale nowMs staleClaimTimeoutMs player ↔
      claim.claimedAt ≠ 0 ∧ (phaseOf caller player system.trace).Stamped := by
  have claimed := (Run.claimed_iff run).mpr ⟨claim, inForce⟩
  have told : (system.world.cells player).claimTimestamp = _ :=
    Run.stamped (Run.right (Run.right (Run.right run))) player claim inForce
      rfl
  rw [Phase.tells_claimTimestamp, alone.owner run inForce] at told
  rw [Core.stale, PlayerCells.stale, told, claimed]
  split
  · rename_i stamped
    simp only [stamped, and_true, decide_true, Bool.true_and,
      Bool.and_eq_true, decide_eq_true_eq, ne_eq]
    apply and_iff_left_of_imp
    intro _
    omega
  · rename_i unstamped
    simp [unstamped]

section Tick

variable {passes : Clock → Clock → Prop} [IsPreorder Clock passes]
  {later : Clock}

/-- One tick of the Reaper, long after the last claim of a worker that has
stopped for good, recovers exactly the players at which it stopped safely. -/
theorem crash_recovered (run : Run config clock .orderly system)
    (alone : OnlyWorker system caller)
    (overdue : Overdue config passes later system caller) :
    Alone passes (system.world.timed later)
      (reaperTick config.staleClaimTimeoutMs) fun _ core' =>
        ∀ player workerId claimedAt,
          ⟨caller, player, .tryClaim workerId claimedAt⟩ ∈
            transfers system.trace →
          (core'.Recovers system.trace player ↔
            SafeStop system caller player) := by
  have keyed : WellKeyed (system.world.timed later) :=
    ⟨(Run.sound run).keyed.primary, (Run.sound run).keyed.index⟩
  apply (alone_reaperTick keyed).mono
  rintro _ _ ⟨moment, passed, reading, _, rfl⟩ player workerId claimedAt claimed
  show ((((system.world.timed later).reap _ _).cells player).state = _ ∧
    system.world.InBoth player ∨
      player ∈ published system.trace ∧ system.world.InNeither player) ↔ _
  rw [Core.state_reap, Core.timed_cells, Core.timed_primary]
  have inBoth := Run.inBoth run (Run.indexed_of_claim run claimed)
  cases current : (system.world.cells player).state with
  | waiting =>
      have both := inBoth (Run.unsettled_of_state run (.inl current))
      rw [ite_self]
      exact iff_of_true (.inl ⟨rfl, both⟩)
        (Run.safeStop_of_waiting run current)
  | claimed =>
      obtain ⟨claim, inForce⟩ := (Run.claimed_iff run).mp current
      have both := inBoth (Run.unsettled_of_state run (.inr current))
      have listed : player ∈ system.world.primary.players :=
        Primary.mem_players.mpr ⟨_, both.1⟩
      have made := lastTransfer_mem (claimOf_eq_some_iff.mp inForce)
      rw [alone.owner run inForce] at made
      have old := overdue player _ _ made moment passed
      rw [Run.safeStop_of_claim run inForce,
        ← alone.stale_iff run inForce old]
      simp [listed, both, both.not_inNeither, Core.stale]
  | matched =>
      obtain ⟨other, marked⟩ := (Run.matched_iff run).mp current
      rw [alone.safeStop_of_marked run marked]
      simp only [Core.stale, PlayerCells.stale, Core.timed_cells, current,
        reduceCtorEq, decide_false, Bool.false_and, Bool.false_eq_true,
        and_false, if_false, false_and, false_or]
      exact and_iff_left_of_imp (Run.inNeither run)
  | evicted =>
      have unpublished : player ∉ published system.trace := by
        intro member
        have matched := Run.matched_of_published (Run.left (Run.left run))
          member
        rw [current] at matched
        cases matched
      refine iff_of_false ?_ fun safe => safe.kept current
      simp [Core.stale, PlayerCells.stale, current, unpublished]

end Tick

end Orderly

theorem OnlyWorker.of_returned {system : System} {caller : Nat}
    (returned : ∀ call ∈ system.calls.eraseIdx caller,
      call.program.returned?.isSome) : OnlyWorker system caller := by
  intro other workerId program different found
  exact returned ⟨_, program⟩
    (List.mem_eraseIdx_iff_getElem?.mpr ⟨other, different, found⟩)

/-- Ten players of one rating, and an attempt that stops after some steps. -/
def stoppedAfter (steps : Nat) : List Action :=
  arrivals 10 1500 ++ .start (.attemptMatch 1) :: turns 10 steps

/-- Only call 10 is still running, and nothing was exchanged but its claims. -/
structure ClaimsOnly (count : Nat) (system : System) : Prop where
  counted : (transfers system.trace).length = count
  claims : ∀ transfer ∈ transfers system.trace,
    transfer.caller = 10 ∧ transfer.site = .tryClaim 1 1000
  returned : ∀ call ∈ system.calls.eraseIdx 10, call.program.returned?.isSome

instance (count : Nat) (system : System) :
    Decidable (ClaimsOnly count system) :=
  decidable_of_iff ((transfers system.trace).length = count ∧
      (∀ transfer ∈ transfers system.trace,
        transfer.caller = 10 ∧ transfer.site = .tryClaim 1 1000) ∧
      ∀ call ∈ system.calls.eraseIdx 10, call.program.returned?.isSome)
    ⟨fun ⟨counted, claims, returned⟩ => ⟨counted, claims, returned⟩,
      fun ⟨counted, claims, returned⟩ => ⟨counted, claims, returned⟩⟩

theorem ClaimsOnly.overdue {count : Nat} {system : System}
    (only : ClaimsOnly count system) :
    Overdue .default Eq ⟨0, 2000⟩ system 10 := by
  rintro player workerId claimedAt member _ rfl
  have site := (only.claims _ member).2
  cases site
  decide

theorem ClaimsOnly.claim {count : Nat} {system : System}
    (only : ClaimsOnly count system) {transfer : Transfer}
    (member : transfer ∈ transfers system.trace) :
    ⟨10, transfer.player, .tryClaim 1 1000⟩ ∈ transfers system.trace := by
  obtain ⟨caller, site⟩ := only.claims transfer member
  rw [← caller, ← site]
  exact member

set_option maxRecDepth 100000 in
/-- The attempt stops right after the exchange of its first `try_claim`. -/
theorem exists_stuck :
    ∃ system player, Run .default ⟨0, 1000⟩ .orderly system ∧
      OnlyWorker system 10 ∧ Overdue .default Eq ⟨0, 2000⟩ system 10 ∧
      ⟨10, player, .tryClaim 1 1000⟩ ∈ transfers system.trace ∧
      ¬ Alone Eq (system.world.timed ⟨0, 2000⟩)
        (reaperTick Config.default.staleClaimTimeoutMs)
        fun _ core' => core'.Recovers system.trace player := by
  obtain ⟨system, run, check⟩ : ∃ system,
      Run .default ⟨0, 1000⟩ .orderly system ∧
        decide (ClaimsOnly 1 system ∧ published system.trace = [] ∧
          ∀ transfer ∈ transfers system.trace,
            ((((reaperTick Config.default.staleClaimTimeoutMs).exec semantics
              ⟨true, 0, id⟩ (system.world.timed ⟨0, 2000⟩)).2).cells
                transfer.player).state = .claimed) = true := by
    apply exists_run_of_play (stoppedAfter 37)
    decide +kernel
  obtain ⟨only, unpublished, claimed⟩ := of_decide_eq_true check
  obtain ⟨transfer, single⟩ := List.length_eq_one_iff.mp only.counted
  have member : transfer ∈ transfers system.trace := by
    rw [single]
    exact List.mem_singleton_self transfer
  refine ⟨system, transfer.player, run, .of_returned only.returned,
    only.overdue, only.claim member, ?_⟩
  intro recovers
  rcases recovers.frozen ⟨true, 0, id⟩ with ⟨waiting, _⟩ | ⟨listed, _⟩
  · rw [claimed transfer member] at waiting
    cases waiting
  · rw [unpublished] at listed
    cases listed

set_option maxRecDepth 100000 in
/-- The attempt stops after its tenth claim. -/
theorem crash_recovered_claims :
    ∃ system, Run .default ⟨0, 1000⟩ .orderly system ∧
      (transfers system.trace).length = 10 ∧
      Alone Eq (system.world.timed ⟨0, 2000⟩)
        (reaperTick Config.default.staleClaimTimeoutMs) fun _ core' =>
          ∀ transfer ∈ transfers system.trace,
            core'.Recovers system.trace transfer.player := by
  obtain ⟨system, run, check⟩ : ∃ system,
      Run .default ⟨0, 1000⟩ .orderly system ∧
        decide (ClaimsOnly 10 system ∧
          ∀ transfer ∈ transfers system.trace,
            SafeStop system 10 transfer.player) = true := by
    apply exists_run_of_play (stoppedAfter 66)
    decide +kernel
  obtain ⟨only, safe⟩ := of_decide_eq_true check
  refine ⟨system, run, only.counted, ?_⟩
  apply (crash_recovered run (.of_returned only.returned) only.overdue).mono
  intro _ _ recovers transfer member
  exact (recovers _ _ _ (only.claim member)).mpr (safe transfer member)

end Matchmaker
