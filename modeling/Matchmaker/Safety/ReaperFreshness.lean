import Matchmaker.Protocol.Reaper
import Matchmaker.Protocol.Stamps

namespace Matchmaker

open Concurrent

/-! Which claims the Reaper resets. It loads the state, loads the timestamp and
exchanges the state, while workers change all of them. -/

/-- Every successful reset ended a claim that was older than the timeout. -/
def resetsStale (timeout : Nat) : Trace → Bool
  | [] => true
  | ⟨_, .exchange player (.reaperReset nowMs), true⟩ :: before =>
      ((claimOf player before).any fun claim =>
        timeout < nowMs - claim.claimedAt) && resetsStale timeout before
  | _ :: before => resetsStale timeout before

/-- Whether the player has been claimed since the call loaded its claim
timestamp. -/
def claimedSinceLoad (caller : Nat) (player : Player) : Trace → Bool
  | [] => false
  | ⟨other, .loadClaimTimestamp loaded, _⟩ :: before =>
      !(other = caller && loaded = player) &&
        claimedSinceLoad caller player before
  | ⟨_, .exchange claimed (.tryClaim ..), true⟩ :: before =>
      claimed = player || claimedSinceLoad caller player before
  | _ :: before => claimedSinceLoad caller player before

def ownsClaim (caller : Nat) (player : Player) (trace : Trace) : Bool :=
  (claimOf player trace).any (·.caller = caller)

/-- A worker stores a claim timestamp, and releases a claimed player, only
while its own claim is in force; and nobody claims a player between the
Reaper's load of its timestamp and the exchange of its state. -/
def Discipline.freshReads : Discipline where
  starts := fun _ _ => true
  performs := fun system caller operation =>
    match operation with
    | .storeClaimTimestamp player _ =>
        phaseOf caller player system.trace = .clearing ||
          ownsClaim caller player system.trace
    | .exchange player .releaseClaim =>
        (system.world.cells player).state ≠ .claimed ||
          ownsClaim caller player system.trace
    | .exchange player (.reaperReset _) =>
        (system.world.cells player).state ≠ .claimed ||
          !claimedSinceLoad caller player system.trace
    | _ => true

theorem ownsClaim_eq {caller : Nat} {player : Player} {trace : Trace}
    {claim : Claim} (inForce : claimOf player trace = some claim)
    (owns : ownsClaim caller player trace = true) : caller = claim.caller := by
  simpa [ownsClaim, inForce, eq_comm] using owns

section Run

variable {config : Config} {clock : Clock} {system : System}

theorem stored_timestamp {caller : Nat} {request : Request} {player : Player}
    {value : Nat} (run : Run config clock .freshReads system)
    (performing : Performing config .freshReads system caller request
      (.storeClaimTimestamp player value)) :
    value = 0 ∨ ∃ claim, claimOf player system.trace = some claim ∧
      claim.caller = caller ∧ claim.claimedAt = value := by
  rcases performing.allowed with ⟨workerId, phase⟩ | ⟨zero, _⟩
  · right
    have owns : ownsClaim caller player system.trace = true := by
      have permitted := performing.permitted
      simpa [Discipline.freshReads, phaseOf, phase] using permitted
    cases inForce : claimOf player system.trace with
    | none => simp [ownsClaim, inForce] at owns
    | some claim =>
        have same := ownsClaim_eq inForce owns
        have carries := Run.carries run inForce
        rw [← same, phaseOf, phase] at carries
        exact ⟨claim, rfl, same.symm, carries.2.symm⟩
  · exact .inl zero

theorem Run.releasing_zero (run : Run config clock .freshReads system)
    {player : Player} {claim : Claim}
    (inForce : claimOf player system.trace = some claim)
    (releasing : phaseOf claim.caller player system.trace = .releasing) :
    (system.world.cells player).claimTimestamp = 0 := by
  refine Run.invariant run (fun core trace =>
    claimOf player trace = some claim →
      phaseOf claim.caller player trace = .releasing →
      (core.cells player).claimTimestamp = 0)
    ?_ (fun _ _ holds => holds) ?_ inForce releasing
  · intro none
    cases none
  · intro system mover request operation choice run performing holds inForce
      releasing
    rcases disturbed_or_undisturbed system player operation with
      ⟨site, rfl, success⟩ | undisturbed
    · rw [claimOf_disturbed success] at inForce
      cases site with
      | tryClaim workerId nowMs =>
          cases inForce
          rw [performing.claiming success choice] at releasing
          cases releasing
      | _ => cases inForce
    · rw [claimOf_undisturbed undisturbed] at inForce
      rw [cells_perform_old (Run.claimed_old run inForce)]
      by_cases same : mover = claim.caller
      · subst same
        have moved := performing.moves player choice
        rw [releasing] at moved
        generalize before : phaseOf claim.caller player system.trace = phase
          at moved
        generalize (system.world.perform choice operation).1 = result at moved
        cases moved with
        | unstamp => simp [PlayerCells.next]
        | stay _ untouched =>
            rw [PlayerCells.next_claimTimestamp]
            · exact holds inForce before
            · rintro value rfl
              simp [Operation.Touches] at untouched
      · rw [phaseOf_other same] at releasing
        by_cases store : ∃ value, operation = .storeClaimTimestamp player value
        · obtain ⟨value, rfl⟩ := store
          rcases stored_timestamp run performing with
            rfl | ⟨claim', inForce', mine, _⟩
          · simp [PlayerCells.next]
          · rw [inForce] at inForce'
            cases inForce'
            exact absurd mine.symm same
        · rw [PlayerCells.next_claimTimestamp fun value equality =>
            store ⟨value, equality⟩]
          exact holds inForce releasing

/-- Where a timestamp that is not zero comes from: the claim in force, a match,
or a claim that the Reaper has ended and has still to clear. -/
inductive Stamp (core : Core) (trace : Trace) (player : Player) : Prop
  | claimed (claim : Claim) (inForce : claimOf player trace = some claim)
      (stamped : claim.claimedAt = (core.cells player).claimTimestamp)
  | matched (state : (core.cells player).state = .matched)
  | clearing (reaper : Nat) (clears : (phaseOf reaper player trace).Clears)

theorem Moves.clears {player : Player} {operation : Operation}
    {result : operation.Result} {before after : Phase}
    (moved : Moves player operation result before after)
    (clears : before.Clears)
    (noStore : ∀ value, operation ≠ .storeClaimTimestamp player value) :
    after.Clears := by
  cases moved with
  | unown => rfl
  | clear => exact absurd rfl (noStore 0)
  | stay => exact clears
  | _ => cases clears

theorem Stamp.disturbed {mover : Nat} {request : Request} {player : Player}
    {site : Exchange} (run : Run config clock .freshReads system)
    (performing : Performing config .freshReads system mover request
      (.exchange player site))
    (success : (system.world.exchange player site).1 = true) (choice : Choice)
    (stamp : Stamp system.world system.trace player)
    (nonzero : (system.world.cells player).claimTimestamp ≠ 0) :
    Stamp (system.world.perform choice (.exchange player site)).2
      (system.eventOf mover choice (.exchange player site) :: system.trace)
      player := by
  have current := exchange_succeeds_iff.mp success
  have moved := performing.moves player choice
  rw [Core.perform, success] at moved
  cases stamp with
  | claimed claim inForce stamped =>
      have claimed := (Run.claimed_iff run).mpr ⟨claim, inForce⟩
      rw [claimed] at current
      cases site with
      | tryClaim => cases current
      | tryEvict => cases current
      | releaseClaim =>
          have phase : phaseOf mover player system.trace = .releasing :=
            performing.allowed
          have owns : ownsClaim mover player system.trace = true := by
            have permitted := performing.permitted
            simpa [Discipline.freshReads, claimed] using permitted
          rw [ownsClaim_eq inForce owns] at phase
          exact absurd (Run.releasing_zero run inForce phase) nonzero
      | markMatched =>
          refine .matched ?_
          rw [cells_perform (by simp)]
          simp [PlayerCells.next, Core.perform, success, Exchange.new]
      | reaperReset nowMs =>
          refine .clearing mover ?_
          generalize phaseOf mover player system.trace = before at moved
          generalize phaseOf mover player (_ :: _) = after at moved ⊢
          cases moved with
          | reset => rfl
          | stay _ untouched => simp [Operation.Touches] at untouched
  | matched state =>
      rw [state] at current
      cases site <;> cases current
  | clearing reaper clears =>
      refine .clearing reaper ?_
      by_cases same : mover = reaper
      · subst same
        exact (performing.moves player choice).clears clears (by simp)
      · rw [phaseOf_other same]
        exact clears

theorem Run.stamp (run : Run config clock .freshReads system)
    {player : Player}
    (nonzero : (system.world.cells player).claimTimestamp ≠ 0) :
    Stamp system.world system.trace player := by
  refine Run.invariant run (fun core trace =>
    (core.cells player).claimTimestamp ≠ 0 → Stamp core trace player)
    ?_ ?_ ?_ nonzero
  · intro nonzero
    exact absurd rfl nonzero
  · intro core trace instant unixMs holds nonzero
    cases holds nonzero with
    | claimed claim inForce stamped => exact .claimed claim inForce stamped
    | matched state => exact .matched state
    | clearing reaper clears => exact .clearing reaper clears
  · intro system mover request operation choice run performing holds nonzero
    by_cases store : ∃ value, operation = .storeClaimTimestamp player value
    · obtain ⟨value, rfl⟩ := store
      rw [cells_perform (by simp)] at nonzero
      have written : value ≠ 0 := by
        simpa [PlayerCells.next] using nonzero
      rcases stored_timestamp run performing with
        zero | ⟨claim, inForce, _, stamped⟩
      · exact absurd zero written
      · refine .claimed claim ?_ ?_
        · rw [claimOf_undisturbed (by simp [Undisturbed])]
          exact inForce
        · rw [cells_perform (by simp)]
          simpa [PlayerCells.next] using stamped
    · have noStore : ∀ value, operation ≠ .storeClaimTimestamp player value :=
        fun value same => store ⟨value, same⟩
      rcases cells_perform_cases system.world choice operation player with
        fresh | stepped
      · rw [fresh] at nonzero
        exact absurd rfl nonzero
      · rw [stepped, PlayerCells.next_claimTimestamp noStore] at nonzero
        rcases disturbed_or_undisturbed system player operation with
          ⟨site, rfl, success⟩ | undisturbed
        · exact (holds nonzero).disturbed run performing success choice nonzero
        · cases holds nonzero with
          | claimed claim inForce stamped =>
              refine .claimed claim ?_ ?_
              · rw [claimOf_undisturbed undisturbed]
                exact inForce
              · rw [stepped, PlayerCells.next_claimTimestamp noStore]
                exact stamped
          | matched state =>
              refine .matched ?_
              rw [stepped, PlayerCells.next_undisturbed choice undisturbed]
              exact state
          | clearing reaper clears =>
              refine .clearing reaper ?_
              by_cases same : mover = reaper
              · subst same
                exact (performing.moves player choice).clears clears noStore
              · rw [phaseOf_other same]
                exact clears

theorem not_claimed_before {caller mover : Nat} {player : Player}
    {operation : Operation} {choice : Choice} {claim : Claim}
    (other : ¬ (mover = caller ∧ operation = .loadClaimTimestamp player))
    (since : claimedSinceLoad caller player
      (system.eventOf mover choice operation :: system.trace) = false)
    (inForce : claimOf player
      (system.eventOf mover choice operation :: system.trace) = some claim) :
    claimedSinceLoad caller player system.trace = false ∧
      claimOf player system.trace = some claim := by
  rcases disturbed_or_undisturbed system player operation with
    ⟨site, rfl, success⟩ | undisturbed
  · rw [claimOf_disturbed success] at inForce
    cases site with
    | tryClaim =>
        simp [System.eventOf, Core.perform, success, claimedSinceLoad] at since
    | _ => cases inForce
  · rw [claimOf_undisturbed undisturbed] at inForce
    refine ⟨?_, inForce⟩
    cases operation with
    | loadClaimTimestamp loaded =>
        simp only [claimedSinceLoad, Bool.and_eq_false_iff] at since
        apply since.resolve_left
        intro own
        exact other (by simpa using own)
    | exchange claimed site =>
        cases success : (system.world.exchange claimed site).1 <;>
          cases site <;>
          simp_all [System.eventOf, Core.perform, claimedSinceLoad]
    | _ => exact since

/-- A timestamp that the Reaper has loaded is the time of the claim in force,
unless the player has been claimed since. -/
theorem Run.suspected (run : Run config clock .freshReads system)
    {caller : Nat} {player : Player} {claimTs : Nat} {claim : Claim}
    (suspected : phaseOf caller player system.trace = .suspected claimTs)
    (nonzero : claimTs ≠ 0)
    (since : claimedSinceLoad caller player system.trace = false)
    (inForce : claimOf player system.trace = some claim) :
    claim.claimedAt = claimTs := by
  refine Run.invariant run (fun _ trace =>
    phaseOf caller player trace = .suspected claimTs →
      claimedSinceLoad caller player trace = false →
      claimOf player trace = some claim → claim.claimedAt = claimTs)
    ?_ (fun _ _ holds => holds) ?_ suspected since inForce
  · intro idle
    cases idle
  · intro system mover request operation choice run performing holds suspected
      since inForce
    by_cases load : mover = caller ∧ operation = .loadClaimTimestamp player
    · obtain ⟨rfl, rfl⟩ := load
      obtain ⟨⟨timeout, role⟩, _, idle⟩ := performing.allowed
      rw [claimOf_undisturbed (by simp [Undisturbed])] at inForce
      have loaded : (system.world.cells player).claimTimestamp = claimTs := by
        rw [phaseOf, progressOf_self, Progress.next_loadClaimTimestamp,
          Progress.setPhase_self] at suspected
        exact Phase.suspected.inj suspected
      cases Run.stamp run (loaded ▸ nonzero) with
      | claimed claim' inForce' stamped =>
          rw [inForce] at inForce'
          cases inForce'
          exact stamped.trans loaded
      | matched state =>
          rw [(Run.claimed_iff run).mpr ⟨claim, inForce⟩] at state
          cases state
      | clearing reaper clears =>
          obtain ⟨next, found⟩ := performing.next
          rw [Request.reaperTick_of_role role] at found
          obtain ⟨call, reaping, busy⟩ := Run.clears_busy run clears
          have same := Run.one_reaper run reaping found busy ⟨rfl, rfl⟩
          rw [same, phaseOf, idle] at clears
          cases clears
    · obtain ⟨earlier, before⟩ := not_claimed_before load since inForce
      refine holds ?_ earlier before
      by_cases same : mover = caller
      · subst same
        have moved := performing.moves player choice
        rw [suspected] at moved
        generalize phaseOf mover player system.trace = before at moved ⊢
        generalize (system.world.perform choice operation).1 = result at moved
        cases moved with
        | suspect => exact absurd ⟨rfl, rfl⟩ load
        | stay => rfl
      · rwa [phaseOf_other same] at suspected

/-- The Reaper resets stale claims only, as long as no worker stores a
timestamp or releases a player after its claim has ended, and nobody claims a
player between the Reaper's load and its exchange. -/
theorem resets_stale (run : Run config clock .freshReads system) :
    resetsStale config.staleClaimTimeoutMs system.trace = true := by
  apply Run.invariant run (fun _ trace =>
    resetsStale config.staleClaimTimeoutMs trace = true) rfl
    (fun _ _ holds => holds)
  intro system mover request operation choice run performing holds
  cases operation with
  | exchange player site =>
      simp only [System.eventOf, Core.perform]
      cases success : (system.world.exchange player site).1 with
      | false => cases site <;> exact holds
      | true =>
          cases site with
          | reaperReset nowMs =>
              obtain ⟨timeout, claimTs, role, _, suspected, nonzero, stale⟩ :=
                performing.allowed
              have claimed := exchange_succeeds_iff.mp success
              obtain ⟨claim, inForce⟩ := (Run.claimed_iff run).mp claimed
              have since : claimedSinceLoad mover player system.trace =
                  false := by
                have permitted := performing.permitted
                simp only [Discipline.freshReads, claimed] at permitted
                simpa [Exchange.current] using permitted
              have stamped := Run.suspected run suspected nonzero since inForce
              have limit : timeout = config.staleClaimTimeoutMs := by
                cases request <;> cases role
                rfl
              rw [← stamped, limit] at stale
              simp [resetsStale, inForce, stale, holds]
          | _ => exact holds
  | _ => exact holds

end Run

/-- One worker claims a player, a second one the other nine, and a third one
has seen all ten. The Reaper loads the timestamp of a stale claim, the second
worker rolls back, the third one claims the player, and the Reaper resets it. -/
def freshReset : List Action :=
  arrivals 10 1500 ++
    [.start (.attemptMatch 1), .start (.attemptMatch 2),
      .start (.attemptMatch 3)] ++
    turns 10 35 ++ turns 11 35 ++ turns 12 35 ++ turns 10 4 ++ turns 11 29 ++
    [.tick 1000000000 1000, .start .reaperTick] ++ turns 13 5 ++
    turns 11 27 ++ turns 12 29 ++ turns 13 1

set_option maxRecDepth 100000 in
theorem exists_fresh_reset :
    ∃ system, Run .default ⟨0, 1000⟩ .free system ∧
      resetsStale Config.default.staleClaimTimeoutMs system.trace = false := by
  obtain ⟨system, run, fresh⟩ : ∃ system,
      Run .default ⟨0, 1000⟩ .free system ∧
        (!resetsStale Config.default.staleClaimTimeoutMs
          system.trace) = true := by
    apply exists_run_of_play freshReset
    decide +kernel
  exact ⟨system, run, by simpa using fresh⟩

set_option maxRecDepth 100000 in
theorem resets_stale_claims :
    ∃ system, Run .default ⟨0, 1000⟩ .freshReads system ∧
      resetsStale Config.default.staleClaimTimeoutMs system.trace = true ∧
      ∃ transfer ∈ transfers system.trace,
        transfer.site = .reaperReset 2000 := by
  obtain ⟨system, run, reset⟩ : ∃ system,
      Run .default ⟨0, 1000⟩ .freshReads system ∧
        decide (∃ transfer ∈ transfers system.trace,
          transfer.site = .reaperReset 2000) = true := by
    apply exists_run_of_play (arrivals 10 1500 ++
      .start (.attemptMatch 1) :: turns 10 66 ++
      [.tick 1000000000 1000, .start .reaperTick] ++ turns 11 63)
    decide +kernel
  exact ⟨system, run, resets_stale run, of_decide_eq_true reset⟩

end Matchmaker
