import Matchmaker.Protocol.Enrolment

namespace Matchmaker

open Concurrent

/-! The state of a player is decided by its last exchange, and the claim in
force belongs to a call that knows of it. -/

section Callers

variable {config : Config} {discipline : Discipline} {system : System}
  {caller other : Nat} {request : Request} {operation : Operation}
  {player : Player}

/-- The operation is no exchange on the player, or one that fails. -/
def Undisturbed (system : System) (player : Player) (operation : Operation) :
    Prop :=
  ∀ site, operation = .exchange player site →
    (system.world.exchange player site).1 = false

theorem Undisturbed.different {disturbed : Player} {site : Exchange}
    (undisturbed : Undisturbed system player (.exchange disturbed site))
    (success : (system.world.exchange disturbed site).1 = true) :
    disturbed ≠ player := by
  rintro rfl
  have failed := undisturbed site rfl
  exact Bool.false_ne_true (failed.symm.trans success)

theorem lastTransfer_undisturbed
    (undisturbed : Undisturbed system player operation) (choice : Choice) :
    lastTransfer player
        (system.eventOf caller choice operation :: system.trace) =
      lastTransfer player system.trace := by
  cases operation with
  | exchange disturbed site =>
      rw [System.eventOf, lastTransfer_exchange, if_neg]
      intro succeeded
      obtain ⟨success, same⟩ := Bool.and_eq_true_iff.mp succeeded
      exact undisturbed.different success (of_decide_eq_true same)
  | _ => exact lastTransfer_cons_of_none rfl

theorem claimOf_undisturbed
    (undisturbed : Undisturbed system player operation) (choice : Choice) :
    claimOf player (system.eventOf caller choice operation :: system.trace) =
      claimOf player system.trace := by
  rw [claimOf, lastTransfer_undisturbed undisturbed, claimOf]

theorem lastTransfer_disturbed {site : Exchange}
    (success : (system.world.exchange player site).1 = true)
    (choice : Choice) :
    lastTransfer player (system.eventOf caller choice
        (.exchange player site) :: system.trace) =
      some ⟨caller, player, site⟩ := by
  rw [System.eventOf, lastTransfer_exchange, if_pos]
  simpa [Core.perform] using success

theorem claimOf_disturbed {site : Exchange}
    (success : (system.world.exchange player site).1 = true)
    (choice : Choice) :
    claimOf player (system.eventOf caller choice
        (.exchange player site) :: system.trace) =
      Transfer.claim? ⟨caller, player, site⟩ := by
  rw [claimOf, lastTransfer_disturbed success]
  rfl

theorem disturbed_or_undisturbed (system : System) (player : Player)
    (operation : Operation) :
    (∃ site, operation = .exchange player site ∧
      (system.world.exchange player site).1 = true) ∨
    Undisturbed system player operation := by
  by_cases disturbed : ∃ site, operation = .exchange player site ∧
      (system.world.exchange player site).1 = true
  · exact .inl disturbed
  · refine .inr ?_
    intro site same
    by_contra success
    exact disturbed ⟨site, same, by simpa using success⟩

theorem Performing.claiming {workerId nowMs : Nat}
    (performing : Performing config discipline system caller request
      (.exchange player (.tryClaim workerId nowMs)))
    (success : (system.world.exchange player
      (.tryClaim workerId nowMs)).1 = true) (choice : Choice) :
    phaseOf caller player (system.eventOf caller choice
        (.exchange player (.tryClaim workerId nowMs)) :: system.trace) =
      .claiming workerId nowMs := by
  have moved := performing.moves player choice
  rw [Core.perform, success] at moved
  generalize phaseOf caller player system.trace = before at moved
  generalize phaseOf caller player (_ :: _) = after at moved ⊢
  cases moved with
  | claim => rfl
  | stay _ untouched => simp [Operation.Touches] at untouched

end Callers

def stateAfter : Option Transfer → PlayerState
  | none => .waiting
  | some transfer => transfer.site.new

theorem exchange_succeeds_iff {core : Core} {player : Player}
    {site : Exchange} :
    (core.exchange player site).1 = true ↔
      (core.cells player).state = site.current := by
  unfold Core.exchange
  split <;> simp_all

/-- What an operation does to the fields of a player. -/
def PlayerCells.next (cells : PlayerCells) (player : Player) :
    (operation : Operation) → operation.Result → PlayerCells
  | .exchange other site, success =>
      if success && other = player then { cells with state := site.new }
      else cells
  | .storeClaimedBy other value, _ =>
      if other = player then { cells with claimedBy := value } else cells
  | .storeClaimTimestamp other value, _ =>
      if other = player then { cells with claimTimestamp := value } else cells
  | .storeMatchedAt other value, _ =>
      if other = player then { cells with matchedAt := some value } else cells
  | _, _ => cells

theorem PlayerCells.next_state {cells : PlayerCells} {player : Player}
    {operation : Operation} {result : operation.Result}
    (noExchange : ∀ other site, operation ≠ .exchange other site) :
    (cells.next player operation result).state = cells.state := by
  cases operation with
  | exchange other site => exact absurd rfl (noExchange other site)
  | storeClaimedBy | storeClaimTimestamp | storeMatchedAt =>
      simp only [next]
      split <;> rfl
  | _ => rfl

theorem PlayerCells.next_undisturbed {cells : PlayerCells} {system : System}
    {player : Player} {operation : Operation} (choice : Choice)
    (undisturbed : Undisturbed system player operation) :
    (cells.next player operation
      (system.world.perform choice operation).1).state = cells.state := by
  cases operation with
  | exchange other site =>
      simp only [next]
      split
      · rename_i succeeded
        obtain ⟨success, same⟩ := Bool.and_eq_true_iff.mp succeeded
        exact absurd (of_decide_eq_true same)
          (undisturbed.different success)
      · rfl
  | _ => exact next_state (by simp)

theorem setCells_apply (core : Core) (player other : Player)
    (update : PlayerCells → PlayerCells) :
    (core.setCells other update).cells player =
      if other = player then update (core.cells player)
      else core.cells player := by
  by_cases same : player = other
  · subst same
    simp [Core.setCells]
  · simp [Core.setCells, same, Ne.symm same]

theorem cells_perform {core : Core} {choice : Choice} {operation : Operation}
    {player : Player}
    (older : ∀ id skillRating joinTimestamp,
      operation = .allocate id skillRating joinTimestamp →
      player ≠ ⟨core.allocated, id, skillRating, joinTimestamp⟩) :
    (core.perform choice operation).2.cells player =
      (core.cells player).next player operation
        (core.perform choice operation).1 := by
  cases operation with
  | exchange other site =>
      simp only [Core.perform, Core.exchange, PlayerCells.next]
      split
      · simp [setCells_apply]
      · rfl
  | allocate id skillRating joinTimestamp =>
      have different := older id skillRating joinTimestamp rfl
      simp [Core.perform, setCells_apply, PlayerCells.next, different.symm]
  | storeClaimedBy other value =>
      simp only [Core.perform, setCells_apply, PlayerCells.next]
  | storeClaimTimestamp other value =>
      simp only [Core.perform, setCells_apply, PlayerCells.next]
  | storeMatchedAt other value =>
      simp only [Core.perform, setCells_apply, PlayerCells.next]
  | _ => rfl

theorem cells_perform_cases (core : Core) (choice : Choice)
    (operation : Operation) (player : Player) :
    (core.perform choice operation).2.cells player = .new ∨
      (core.perform choice operation).2.cells player =
        (core.cells player).next player operation
          (core.perform choice operation).1 := by
  by_cases fresh : ∃ id skillRating joinTimestamp,
      operation = .allocate id skillRating joinTimestamp ∧
        player = ⟨core.allocated, id, skillRating, joinTimestamp⟩
  · obtain ⟨id, skillRating, joinTimestamp, rfl, rfl⟩ := fresh
    refine .inl ?_
    simp only [Core.perform]
    rw [setCells_apply, if_pos rfl]
  · refine .inr (cells_perform ?_)
    intro id skillRating joinTimestamp allocation same
    exact fresh ⟨id, skillRating, joinTimestamp, allocation, same⟩

theorem cells_perform_old {core : Core} {player : Player}
    (old : player.address < core.allocated) (choice : Choice)
    (operation : Operation) :
    (core.perform choice operation).2.cells player =
      (core.cells player).next player operation
        (core.perform choice operation).1 := by
  apply cells_perform
  rintro id skillRating joinTimestamp _ rfl
  exact Nat.lt_irrefl _ old

section Run

variable {config : Config} {clock : Clock} {discipline : Discipline}
  {system : System}

theorem Run.state (run : Run config clock discipline system)
    (player : Player) :
    (system.world.cells player).state =
      stateAfter (lastTransfer player system.trace) := by
  apply Run.invariant run (fun core trace =>
    (core.cells player).state = stateAfter (lastTransfer player trace))
    rfl (fun _ _ holds => holds)
  intro system caller request operation choice run performing holds
  cases operation with
  | exchange other site =>
      rw [cells_perform (by simp), System.eventOf, lastTransfer_exchange,
        PlayerCells.next]
      split
      · rfl
      · exact holds
  | allocate id skillRating joinTimestamp =>
      rw [lastTransfer_cons_of_none rfl, ← holds]
      simp only [Core.perform, Core.setCells, Function.update_apply]
      split
      · rename_i fresh
        have unseen : lastTransfer player system.trace = none := by
          cases last : lastTransfer player system.trace with
          | none => rfl
          | some transfer =>
              have old := Run.stored_old run
                (Run.stored_of_transfer run (lastTransfer_mem last))
              rw [lastTransfer_player last, fresh] at old
              exact absurd old (Nat.lt_irrefl _)
        rw [holds, unseen]
        rfl
      · rfl
  | _ =>
      rw [lastTransfer_cons_of_none rfl, ← holds, cells_perform (by simp)]
      exact PlayerCells.next_state (by simp)

theorem Run.claimed_iff (run : Run config clock discipline system)
    {player : Player} :
    (system.world.cells player).state = .claimed ↔
      ∃ claim, claimOf player system.trace = some claim := by
  rw [Run.state run]
  constructor
  · intro claimed
    cases last : lastTransfer player system.trace with
    | none => simp [last, stateAfter] at claimed
    | some transfer =>
        obtain ⟨caller, other, site⟩ := transfer
        cases site with
        | tryClaim workerId nowMs =>
            exact ⟨⟨caller, workerId, nowMs⟩, by
              simp [claimOf, last, Transfer.claim?]⟩
        | _ => simp [last, stateAfter, Exchange.new] at claimed
  · intro found
    obtain ⟨claim, inForce⟩ := found
    rw [claimOf_eq_some_iff.mp inForce]
    rfl

theorem Run.transfer_of_state (run : Run config clock discipline system)
    {player : Player} {state : PlayerState}
    (reached : (system.world.cells player).state = state)
    (left : state ≠ .waiting) :
    ∃ transfer ∈ transfers system.trace, transfer.player = player ∧
      transfer.site.new = state := by
  rw [Run.state run] at reached
  cases last : lastTransfer player system.trace with
  | none =>
      rw [last] at reached
      exact absurd reached.symm left
  | some transfer =>
      rw [last] at reached
      exact ⟨transfer, lastTransfer_mem last, lastTransfer_player last,
        reached⟩

theorem Run.final (run : Run config clock discipline system)
    {transfer : Transfer} (member : transfer ∈ transfers system.trace)
    (settled : transfer.site = .markMatched ∨ transfer.site = .tryEvict) :
    lastTransfer transfer.player system.trace = some transfer := by
  refine Run.invariant run (fun _ trace => transfer ∈ transfers trace →
    lastTransfer transfer.player trace = some transfer) ?_
    (fun _ _ holds => holds) ?_ member
  · intro none
    cases none
  · intro system caller request operation choice run performing holds member
    rcases transfers_cons_cases member with earlier | succeeded
    · have last := holds earlier
      cases operation with
      | exchange other site =>
          rw [System.eventOf, lastTransfer_exchange, if_neg, last]
          intro overwritten
          obtain ⟨success, same⟩ := Bool.and_eq_true_iff.mp overwritten
          obtain rfl : other = transfer.player := by simpa using same
          have current := exchange_succeeds_iff.mp success
          rw [Run.state run, last] at current
          rcases settled with settled | settled <;>
            cases site <;> simp [stateAfter, settled, Exchange.new,
              Exchange.current] at current
      | _ =>
          rw [lastTransfer_cons_of_none rfl]
          exact last
    · rw [succeeded, lastTransfer_exchange]
      simp

end Run

/-- The phase a call is in with a player while its claim is in force. -/
def Phase.Carries (claim : Claim) : Phase → Prop
  | .claiming workerId nowMs | .stamping workerId nowMs
  | .held workerId nowMs =>
      workerId = claim.workerId ∧ nowMs = claim.claimedAt
  | .unclaiming | .releasing | .marking => True
  | _ => False

theorem Phase.Carries.active {claim : Claim} {phase : Phase}
    (carries : phase.Carries claim) : phase.Active := by
  cases phase <;> first
    | rfl
    | cases carries

theorem Moves.carries {claim : Claim} {player : Player} {system : System}
    {operation : Operation} {result : operation.Result}
    {before after : Phase} (moved : Moves player operation result before after)
    (carries : before.Carries claim)
    (claimed : (system.world.cells player).state = .claimed)
    (undisturbed : Undisturbed system player operation) :
    after.Carries claim := by
  have refused : ∀ site, operation = .exchange player site →
      site.current ≠ .claimed := by
    intro site same current
    have failed := undisturbed site same
    rw [← Bool.not_eq_true, exchange_succeeds_iff, current] at failed
    exact failed claimed
  cases moved with
  | stamp => exact carries
  | hold => exact carries
  | stay => exact carries
  | unclaim => exact trivial
  | unstamp => exact trivial
  | settle => exact trivial
  | release => exact absurd rfl (refused _ rfl)
  | mark => exact absurd rfl (refused _ rfl)
  | miss => exact absurd rfl (refused _ rfl)
  | _ => cases carries

section Run

variable {config : Config} {clock : Clock} {discipline : Discipline}
  {system : System}

/-- A claim in force belongs to a call that is still busy with the player. -/
theorem Run.carries (run : Run config clock discipline system)
    {player : Player} {claim : Claim}
    (inForce : claimOf player system.trace = some claim) :
    (phaseOf claim.caller player system.trace).Carries claim := by
  refine Run.invariant run (fun _ trace => claimOf player trace = some claim →
    (phaseOf claim.caller player trace).Carries claim) ?_
    (fun _ _ holds => holds) ?_ inForce
  · intro none
    cases none
  · intro system caller request operation choice run performing holds inForce
    rcases disturbed_or_undisturbed system player operation with
      ⟨site, rfl, success⟩ | undisturbed
    · rw [claimOf_disturbed success] at inForce
      cases site with
      | tryClaim workerId nowMs =>
          cases inForce
          rw [performing.claiming success choice]
          exact ⟨rfl, rfl⟩
      | _ => cases inForce
    · rw [claimOf_undisturbed undisturbed] at inForce
      have before := holds inForce
      by_cases same : caller = claim.caller
      · subst same
        exact (performing.moves player choice).carries before
          ((Run.claimed_iff run).mpr ⟨claim, inForce⟩) undisturbed
      · rw [phaseOf_other same]
        exact before

end Run

end Matchmaker
