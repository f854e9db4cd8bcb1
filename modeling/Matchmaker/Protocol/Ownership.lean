import Matchmaker.Protocol.Ends

namespace Matchmaker

open Concurrent

/-! A claim that the Reaper has not reset stays with the call that made it, as
long as no call ends a claim after losing its own. -/

/-- A call ends the claim on a player only if the Reaper has not reset its own,
or if nobody has claimed the player since. -/
def Discipline.ownClaims : Discipline where
  starts := fun _ _ => true
  performs := fun system caller operation =>
    match operation with
    | .exchange player .releaseClaim | .exchange player .markMatched =>
        !(resetSince caller player system.trace &&
          (system.world.cells player).state = .claimed)
    | _ => true

/-- No call marks a player after the Reaper has reset its claim on it, and none
releases a player that somebody has claimed in the meantime. -/
def Discipline.keptClaims : Discipline where
  starts := fun _ _ => true
  performs := fun system caller operation =>
    match operation with
    | .exchange player .releaseClaim =>
        !(resetSince caller player system.trace &&
          (system.world.cells player).state = .claimed)
    | .exchange player .markMatched =>
        !resetSince caller player system.trace
    | _ => true

/-- The Reaper resets no claim. -/
def Discipline.noResets : Discipline where
  starts := fun _ _ => true
  performs := fun system _ operation =>
    match operation with
    | .exchange player (.reaperReset _) =>
        (system.world.cells player).state ≠ .claimed
    | _ => true

section Resets

variable {system : System} {caller other : Nat} {player : Player}
  {operation : Operation} {site : Exchange}

theorem resetSince_undisturbed
    (undisturbed : Undisturbed system player operation) (choice : Choice) :
    resetSince other player
        (system.eventOf caller choice operation :: system.trace) =
      resetSince other player system.trace := by
  cases operation with
  | exchange disturbed site =>
      unfold resetSince
      cases success : (system.world.exchange disturbed site).1 with
      | false => simp [System.eventOf, Core.perform, success]
      | true =>
          have different := undisturbed.different success
          simp [System.eventOf, Core.perform, success, resetAfterClaim,
            different]
  | _ => exact resetSince_cons_of_none rfl

theorem resetSince_disturbed
    (success : (system.world.exchange player site).1 = true)
    (choice : Choice) :
    resetSince other player (system.eventOf caller choice
        (.exchange player site) :: system.trace) =
      match site with
      | .reaperReset _ => true
      | .tryClaim .. =>
          caller ≠ other && resetSince other player system.trace
      | _ => resetSince other player system.trace := by
  unfold resetSince
  cases site <;> simp [System.eventOf, Core.perform, success, resetAfterClaim]

end Resets

theorem Moves.active_before {player : Player} {operation : Operation}
    {result : operation.Result} {before after : Phase}
    (moved : Moves player operation result before after)
    (active : after.Active)
    (failed : ∀ site, operation = .exchange player site →
      result ≍ false) : before.Active := by
  cases moved with
  | claim => cases failed _ rfl
  | stay => exact active
  | _ => first
    | rfl
    | cases active

/-- Every published player was moved from claimed to matched by the attempt
that published it. -/
def PublishesOwn (trace : Trace) : Prop :=
  ∀ publication ∈ publications trace, ∀ player ∈ publication.players,
    ⟨publication.caller, player, .markMatched⟩ ∈ transfers trace

instance (trace : Trace) : Decidable (PublishesOwn trace) :=
  inferInstanceAs (Decidable (∀ publication ∈ publications trace,
    ∀ player ∈ publication.players,
      ⟨publication.caller, player, .markMatched⟩ ∈ transfers trace))

/-- The claim on the player that is in force was made by the call. -/
def Owns (caller : Nat) (player : Player) (trace : Trace) : Prop :=
  ∃ claim, claimOf player trace = some claim ∧ claim.caller = caller

theorem Owns.unique {caller other : Nat} {player : Player} {trace : Trace}
    (first : Owns caller player trace) (second : Owns other player trace) :
    caller = other := by
  obtain ⟨claim, inForce, rfl⟩ := first
  obtain ⟨claim', inForce', rfl⟩ := second
  rw [inForce] at inForce'
  cases inForce'
  rfl

section Run

variable {config : Config} {clock : Clock} {system : System}

section Mover

variable {discipline : Discipline} {mover : Nat} {request : Request}
  {player : Player} {operation : Operation} {site : Exchange}

/-- Only a claim leaves its caller busy with the player. -/
theorem Performing.owns_exchanged
    (performing : Performing config discipline system mover request
      (.exchange player site))
    (success : (system.world.exchange player site).1 = true) (choice : Choice)
    (active : (phaseOf mover player
      (system.eventOf mover choice (.exchange player site) ::
        system.trace)).Active) :
    Owns mover player
      (system.eventOf mover choice (.exchange player site) ::
        system.trace) := by
  have moved := performing.moves player choice
  rw [Core.perform, success] at moved
  generalize phaseOf mover player system.trace = before at moved
  generalize phaseOf mover player (_ :: _) = after at moved active
  cases moved with
  | claim workerId nowMs => exact ⟨_, claimOf_disturbed success choice, rfl⟩
  | stay _ untouched => simp [Operation.Touches] at untouched
  | _ => cases active

theorem Performing.active_undisturbed {caller : Nat}
    (performing : Performing config discipline system mover request operation)
    (undisturbed : Undisturbed system player operation) (choice : Choice)
    (active : (phaseOf caller player
      (system.eventOf mover choice operation :: system.trace)).Active) :
    (phaseOf caller player system.trace).Active := by
  by_cases same : mover = caller
  · subst same
    apply (performing.moves player choice).active_before active
    rintro site rfl
    exact heq_of_eq (undisturbed site rfl)
  · rwa [phaseOf_other same] at active

theorem Performing.active_releasing
    (performing : Performing config discipline system mover request
      (.exchange player .releaseClaim)) :
    (phaseOf mover player system.trace).Active := by
  have phase : phaseOf mover player system.trace = .releasing :=
    performing.allowed
  rw [phase]
  rfl

theorem Performing.active_marking
    (performing : Performing config discipline system mover request
      (.exchange player .markMatched)) :
    (phaseOf mover player system.trace).Active := by
  have phase : phaseOf mover player system.trace = .marking :=
    performing.allowed
  rw [phase]
  rfl

end Mover

/-- A call that is busy with a player owns the claim on it, unless the Reaper
has reset it. -/
theorem Run.owns (run : Run config clock .ownClaims system) {caller : Nat}
    {player : Player} (active : (phaseOf caller player system.trace).Active) :
    Owns caller player system.trace ∨
      resetSince caller player system.trace = true := by
  refine Run.invariant run (fun _ trace => ∀ caller,
    (phaseOf caller player trace).Active →
    Owns caller player trace ∨ resetSince caller player trace = true) ?_
    (fun _ _ holds => holds) ?_ caller active
  · intro caller active
    cases active
  · intro system mover request operation choice run performing holds caller
      active
    rcases disturbed_or_undisturbed system player operation with
      ⟨site, rfl, success⟩ | undisturbed
    · rw [resetSince_disturbed success]
      have current := exchange_succeeds_iff.mp success
      by_cases same : mover = caller
      · subst same
        exact .inl (performing.owns_exchanged success choice active)
      · rw [phaseOf_other same] at active
        have earlier := holds caller active
        have unclaimed : (system.world.cells player).state = .waiting →
            resetSince caller player system.trace = true := by
          intro waiting
          apply earlier.resolve_left
          intro found
          obtain ⟨claim, inForce, _⟩ := found
          rw [(Run.claimed_iff run).mpr ⟨claim, inForce⟩] at waiting
          cases waiting
        have ended (own : (phaseOf mover player system.trace).Active)
            (lawful : resetSince mover player system.trace = false) :
            resetSince caller player system.trace = true := by
          apply earlier.resolve_left
          intro owns
          have owner := (holds mover own).resolve_right (by simp [lawful])
          exact same (owner.unique owns)
        right
        cases site with
        | tryClaim workerId nowMs => simp [same, unclaimed current]
        | reaperReset nowMs => rfl
        | tryEvict => exact unclaimed current
        | releaseClaim =>
            have lawful := performing.permitted
            simp only [Discipline.ownClaims, current, Exchange.current] at lawful
            exact ended performing.active_releasing (by simpa using lawful)
        | markMatched =>
            have lawful := performing.permitted
            simp only [Discipline.ownClaims, current, Exchange.current] at lawful
            exact ended performing.active_marking (by simpa using lawful)
    · rw [resetSince_undisturbed undisturbed, Owns,
        claimOf_undisturbed undisturbed]
      exact holds caller
        (performing.active_undisturbed undisturbed choice active)

theorem Performing.owns {discipline discipline' : Discipline} {mover : Nat}
    {request : Request} {operation : Operation} {player : Player}
    (performing : Performing config discipline system mover request operation)
    (run : Run config clock discipline' system)
    (owns : ∀ caller, (phaseOf caller player system.trace).Active →
      Owns caller player system.trace)
    (kept : ∀ nowMs, operation ≠ .exchange player (.reaperReset nowMs))
    (choice : Choice) {caller : Nat}
    (active : (phaseOf caller player
      (system.eventOf mover choice operation :: system.trace)).Active) :
    Owns caller player
      (system.eventOf mover choice operation :: system.trace) := by
  rcases disturbed_or_undisturbed system player operation with
    ⟨site, rfl, success⟩ | undisturbed
  · have current := exchange_succeeds_iff.mp success
    by_cases same : mover = caller
    · subst same
      exact performing.owns_exchanged success choice active
    · rw [phaseOf_other same] at active
      have owned := owns caller active
      obtain ⟨claim, inForce, _⟩ := id owned
      have claimed := (Run.claimed_iff run).mpr ⟨claim, inForce⟩
      rw [claimed] at current
      have own (busy : (phaseOf mover player system.trace).Active) :
          mover = caller := (owns mover busy).unique owned
      cases site with
      | tryClaim | tryEvict => cases current
      | reaperReset nowMs => exact absurd rfl (kept nowMs)
      | releaseClaim => exact absurd (own performing.active_releasing) same
      | markMatched => exact absurd (own performing.active_marking) same
  · rw [Owns, claimOf_undisturbed undisturbed]
    exact owns caller
      (performing.active_undisturbed undisturbed choice active)

theorem Run.ownClaims_of_keptClaims
    (run : Run config clock .keptClaims system) :
    Run config clock .ownClaims system := by
  refine Run.mono run (fun _ _ started => started) ?_
  intro system caller request operation _ performing
  have kept := performing.permitted
  cases operation with
  | exchange player site =>
      cases site with
      | markMatched =>
          have lawful : resetSince caller player system.trace = false := by
            simpa [Discipline.keptClaims] using kept
          simp [Discipline.ownClaims, lawful]
      | _ => exact kept
  | _ => exact kept

theorem Run.active_claimed (run : Run config clock .ownClaims system)
    {caller : Nat} {player : Player}
    (active : (phaseOf caller player system.trace).Active)
    (kept : resetSince caller player system.trace = false) :
    (system.world.cells player).state = .claimed := by
  obtain ⟨claim, inForce, _⟩ :=
    (Run.owns run active).resolve_right (by simp [kept])
  exact (Run.claimed_iff run).mpr ⟨claim, inForce⟩

theorem Run.mark_succeeds (run : Run config clock .keptClaims system)
    {caller : Nat} {request : Request} {player : Player}
    (performing : Performing config .keptClaims system caller request
      (.exchange player .markMatched)) :
    (system.world.exchange player .markMatched).1 = true := by
  have lawful : resetSince caller player system.trace = false := by
    simpa [Discipline.keptClaims] using performing.permitted
  exact exchange_succeeds_iff.mpr (Run.active_claimed
    (Run.ownClaims_of_keptClaims run) performing.active_marking lawful)

theorem Run.never_missed (run : Run config clock .keptClaims system)
    {caller : Nat} {player : Player} :
    phaseOf caller player system.trace ≠ .missed := by
  apply Run.invariant run (fun _ trace =>
    phaseOf caller player trace ≠ .missed) (by intro missed; cases missed)
    (fun _ _ holds => holds)
  intro system mover request operation choice run performing holds missed
  by_cases same : mover = caller
  · subst same
    have moved := performing.moves player choice
    rw [missed] at moved
    generalize phaseOf mover player system.trace = before at moved holds
    generalize answer : (system.world.perform choice operation).1 = result
      at moved
    cases moved with
    | miss =>
        exact Bool.false_ne_true
          (answer.symm.trans (Run.mark_succeeds run performing))
    | stay => exact holds rfl
  · rw [phaseOf_other same] at missed
    exact holds missed

theorem Run.publishesOwn (run : Run config clock .keptClaims system) :
    PublishesOwn system.trace := by
  intro publication among player member
  have phase := (Run.recorded run among).phases player member
  exact (Run.settled_iff run rfl).mp
    (phase.resolve_right (Run.never_missed run))

theorem Run.no_reset (run : Run config clock .noResets system)
    {transfer : Transfer} (member : transfer ∈ transfers system.trace)
    {nowMs : Nat} : transfer.site ≠ .reaperReset nowMs := by
  refine Run.invariant run (fun _ trace => transfer ∈ transfers trace →
    transfer.site ≠ .reaperReset nowMs) ?_ (fun _ _ holds => holds) ?_ member
  · intro none
    cases none
  · intro system caller request operation choice run performing holds member
    rcases transfers_cons_cases member with earlier | succeeded
    · exact holds earlier
    · obtain rfl : operation = _ := congrArg Event.operation succeeded
      intro reset
      have success : (system.world.perform choice (.exchange transfer.player
          transfer.site)).1 = true := eq_of_heq (Event.mk.inj succeeded).2.2
      have current := exchange_succeeds_iff.mp success
      have permitted := performing.permitted
      rw [reset] at current permitted
      simp [Discipline.noResets, current, Exchange.current] at permitted

theorem resetAfterClaim_eq_false {caller : Nat} {player : Player}
    {transfers : List Transfer}
    (none : ∀ transfer ∈ transfers, ∀ nowMs,
      transfer.site ≠ .reaperReset nowMs) :
    resetAfterClaim caller player transfers = false := by
  induction transfers with
  | nil => rfl
  | cons transfer earlier induction =>
      have rest := induction fun other member =>
        none other (List.mem_cons_of_mem _ member)
      unfold resetAfterClaim
      split
      · split
        · rename_i nowMs site
          exact absurd site (none transfer (List.mem_cons_self ..) nowMs)
        · simp [rest]
        · exact rest
      · exact rest

theorem Run.resetSince_eq_false (run : Run config clock .noResets system)
    (caller : Nat) (player : Player) :
    resetSince caller player system.trace = false :=
  resetAfterClaim_eq_false fun _ member _ => Run.no_reset run member

theorem Run.keeps_claims (run : Run config clock .noResets system)
    (caller : Nat) (operation : Operation) :
    Discipline.keptClaims.performs system caller operation = true := by
  cases operation with
  | exchange player site =>
      cases site <;> simp [Discipline.keptClaims,
        Run.resetSince_eq_false run caller player]
  | _ => rfl

theorem Run.keptClaims_of_noResets (run : Run config clock .noResets system) :
    Run config clock .keptClaims system :=
  Run.mono run (fun _ _ started => started)
    fun before _ => Run.keeps_claims before _ _

theorem Run.owns_of_noResets (run : Run config clock .noResets system)
    {caller : Nat} {player : Player}
    (active : (phaseOf caller player system.trace).Active) :
    Owns caller player system.trace :=
  (Run.owns (Run.ownClaims_of_keptClaims (Run.keptClaims_of_noResets run))
    active).resolve_right (by simp [Run.resetSince_eq_false run])

theorem Run.never_clears (run : Run config clock .noResets system)
    {caller : Nat} {player : Player} :
    (phaseOf caller player system.trace).Clears = false := by
  apply Run.invariant run (fun _ trace =>
    (phaseOf caller player trace).Clears = false) rfl
    (fun _ _ holds => holds)
  intro system mover request operation choice run performing holds
  by_cases same : mover = caller
  · subst same
    have moved := performing.moves player choice
    generalize phaseOf mover player system.trace = before at moved holds
    generalize phaseOf mover player (_ :: _) = after at moved ⊢
    generalize answer : (system.world.perform choice operation).1 = result
      at moved
    cases moved with
    | reset claimTs nowMs =>
        have current := exchange_succeeds_iff.mp answer
        have permitted := performing.permitted
        simp [Discipline.noResets, current, Exchange.current] at permitted
    | unown => cases holds
    | stay => exact holds
    | _ => rfl
  · rw [phaseOf_other same]
    exact holds

end Run

/-- An attempt that cannot have the tenth player stalls while the Reaper resets
the nine others, and its own releases come too late. Then a player joins, and
another attempt forms the match. -/
def lateReleases : List Action :=
  arrivals 10 1500 ++ .start (.attemptMatch 1) :: turns 10 36 ++
    .start (.cancel 10) :: turns 11 6 ++ turns 10 28 ++
    [.tick 1000000000 1000, .start .reaperTick] ++ turns 12 57 ++
    turns 10 28 ++ .start (.enqueue 11 1500) :: turns 13 8 ++
    .start (.attemptMatch 1) :: turns 14 147

end Matchmaker
