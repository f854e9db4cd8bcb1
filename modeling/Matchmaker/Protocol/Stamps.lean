import Matchmaker.Protocol.Ownership

namespace Matchmaker

open Concurrent

/-! The claim fields of a player, and who writes them. -/

inductive ClaimField
  | claimedBy
  | claimTimestamp
deriving DecidableEq

def PlayerCells.field (cells : PlayerCells) : ClaimField → Nat
  | .claimedBy => cells.claimedBy
  | .claimTimestamp => cells.claimTimestamp

/-- The claim field that the operation writes, and of which player. -/
def Operation.stored? : Operation → Option (Player × ClaimField)
  | .storeClaimedBy player _ => some (player, .claimedBy)
  | .storeClaimTimestamp player _ => some (player, .claimTimestamp)
  | _ => none

namespace PlayerCells

variable {cells : PlayerCells} {player : Player} {operation : Operation}
  {result : operation.Result} {field : ClaimField}

theorem next_field (quiet : operation.stored? ≠ some (player, field)) :
    (cells.next player operation result).field field = cells.field field := by
  cases operation with
  | exchange | storeMatchedAt =>
      simp only [next]
      split <;> cases field <;> rfl
  | storeClaimedBy other value | storeClaimTimestamp other value =>
      simp only [next]
      split
      · rename_i same
        subst same
        cases field <;> first
          | rfl
          | exact absurd rfl quiet
      · rfl
  | _ => rfl

theorem next_claimTimestamp
    (quiet : ∀ value, operation ≠ .storeClaimTimestamp player value) :
    (cells.next player operation result).claimTimestamp =
      cells.claimTimestamp := by
  apply @next_field cells player operation result .claimTimestamp
  intro stores
  cases operation with
  | storeClaimTimestamp other value =>
      cases stores
      exact quiet value rfl
  | _ => cases stores

end PlayerCells

/-- What a field reads while the owner of the claim is in the phase, if nobody
else writes it. -/
def Phase.tells (claim : Claim) : ClaimField → Phase → Nat
  | .claimedBy, .stamping .. | .claimedBy, .held .. | .claimedBy, .marking =>
      claim.workerId
  | .claimTimestamp, .held .. | .claimTimestamp, .unclaiming
  | .claimTimestamp, .marking => claim.claimedAt
  | _, _ => 0

section Moves

variable {cells : PlayerCells} {player : Player} {claim : Claim}
  {operation : Operation} {result : operation.Result} {before after : Phase}
  {field : ClaimField}

theorem Moves.tells_stored
    (moved : Moves player operation result before after)
    (carries : before.Carries claim)
    (stores : operation.stored? = some (player, field)) :
    (cells.next player operation result).field field =
      after.tells claim field := by
  cases moved with
  | stamp workerId nowMs =>
      cases stores
      simpa [PlayerCells.next, PlayerCells.field, Phase.tells]
        using carries.1
  | hold workerId nowMs =>
      cases stores
      simpa [PlayerCells.next, PlayerCells.field, Phase.tells]
        using carries.2
  | unclaim | unstamp =>
      cases stores
      simp [PlayerCells.next, PlayerCells.field, Phase.tells]
  | stay _ untouched =>
      cases operation with
      | storeClaimedBy other value | storeClaimTimestamp other value =>
          cases stores
          simp [Operation.Touches] at untouched
      | _ => cases stores
  | unown | clear => cases carries
  | _ => cases stores

theorem Moves.tells_quiet
    (moved : Moves player operation result before after)
    (carries : before.Carries claim) (carries' : after.Carries claim)
    (quiet : operation.stored? ≠ some (player, field)) :
    before.tells claim field = after.tells claim field := by
  cases moved with
  | stamp | hold | unclaim | unstamp =>
      cases field <;> first
        | rfl
        | exact absurd rfl quiet
  | settle => cases field <;> rfl
  | stay => rfl
  | claim => cases carries
  | _ => cases carries'

end Moves

/-- As long as the owner of the claim in force is in a known phase, the field
reads what that phase tells. -/
def Tells (known : Phase → Bool) (field : ClaimField) (player : Player)
    (core : Core) (trace : Trace) : Prop :=
  ∀ claim, claimOf player trace = some claim →
    known (phaseOf claim.caller player trace) →
    (core.cells player).field field =
      (phaseOf claim.caller player trace).tells claim field

section Run

variable {config : Config} {clock : Clock} {discipline : Discipline}
  {system : System}

theorem Run.claimed_old (run : Run config clock discipline system)
    {player : Player} {claim : Claim}
    (inForce : claimOf player system.trace = some claim) :
    player.address < system.world.allocated :=
  Run.stored_old run (Run.stored_of_transfer run
    (lastTransfer_mem (claimOf_eq_some_iff.mp inForce)))

/-- What one step has to respect for a field to go on telling the claim: a new
claim finds the field at zero, and a field that is known is written by the
owner of the claim only. -/
theorem Tells.perform {known : Phase → Bool} {field : ClaimField}
    {player : Player} {caller : Nat} {request : Request}
    {operation : Operation}
    (tells : Tells known field player system.world system.trace)
    (back : ∀ {result before after},
      Moves player operation result before after → known after →
      known before ∨ operation.stored? = some (player, field))
    (run : Run config clock discipline system)
    (performing : Performing config discipline system caller request operation)
    (zero : ∀ workerId nowMs,
      operation = .exchange player (.tryClaim workerId nowMs) →
      (system.world.cells player).state = .waiting →
      known (.claiming workerId nowMs) →
      (system.world.cells player).field field = 0)
    (own : ∀ claim, claimOf player system.trace = some claim →
      known (phaseOf claim.caller player system.trace) →
      operation.stored? = some (player, field) → caller = claim.caller)
    (choice : Choice) :
    Tells known field player (system.world.perform choice operation).2
      (system.eventOf caller choice operation :: system.trace) := by
  intro claim inForce knows
  rcases disturbed_or_undisturbed system player operation with
    ⟨site, rfl, success⟩ | undisturbed
  · rw [claimOf_disturbed success] at inForce
    cases site with
    | tryClaim workerId nowMs =>
        cases inForce
        rw [performing.claiming success choice] at knows ⊢
        rw [cells_perform (by simp),
          PlayerCells.next_field (by simp [Operation.stored?])]
        rw [zero workerId nowMs rfl (exchange_succeeds_iff.mp success) knows]
        cases field <;> rfl
    | _ => cases inForce
  · rw [claimOf_undisturbed undisturbed] at inForce
    rw [cells_perform_old (Run.claimed_old run inForce)]
    by_cases same : caller = claim.caller
    · subst same
      have moved := performing.moves player choice
      have carries := Run.carries run inForce
      have carries' := moved.carries carries
        ((Run.claimed_iff run).mpr ⟨claim, inForce⟩) undisturbed
      by_cases stores : operation.stored? = some (player, field)
      · exact moved.tells_stored carries stores
      · rw [PlayerCells.next_field stores,
          tells claim inForce ((back moved knows).resolve_right stores)]
        exact moved.tells_quiet carries carries' stores
    · rw [phaseOf_other same] at knows ⊢
      rw [PlayerCells.next_field, tells claim inForce knows]
      intro stores
      exact same (own claim inForce knows stores)

theorem Performing.storing {caller : Nat} {request : Request}
    {operation : Operation} {player : Player} {field : ClaimField}
    (performing : Performing config discipline system caller request operation)
    (stores : operation.stored? = some (player, field)) :
    (phaseOf caller player system.trace).Active = true ∨
      (phaseOf caller player system.trace).Clears = true := by
  have allowed := performing.allowed
  cases operation with
  | storeClaimedBy other value =>
      cases stores
      rcases allowed with ⟨nowMs, phase⟩ |
        ⟨_, ⟨workerId, nowMs, phase⟩ | phase⟩ <;> rw [phaseOf, phase]
      · exact .inl rfl
      · exact .inl rfl
      · exact .inr rfl
  | storeClaimTimestamp other value =>
      cases stores
      rcases allowed with ⟨workerId, phase⟩ | ⟨_, phase | phase⟩ <;>
        rw [phaseOf, phase]
      · exact .inl rfl
      · exact .inl rfl
      · exact .inr rfl
  | _ => cases stores

end Run

section Run

variable {config : Config} {clock : Clock} {system : System}

theorem Run.owns_stored (run : Run config clock .noResets system)
    {caller : Nat} {request : Request} {operation : Operation}
    {player : Player} {field : ClaimField}
    (performing : Performing config .noResets system caller request operation)
    (stores : operation.stored? = some (player, field)) :
    Owns caller player system.trace := by
  refine Run.owns_of_noResets run
    ((performing.storing stores).resolve_right ?_)
  rw [Run.never_clears run]
  exact nofun

/-- The claim fields of a player when the Reaper resets nothing: zero while it
is waiting, and what the phase of the owner tells while it is claimed. -/
structure Fields (player : Player) (core : Core) (trace : Trace) : Prop where
  waiting : (core.cells player).state = .waiting →
    ∀ field, (core.cells player).field field = 0
  claimed : ∀ field, Tells (fun _ => true) field player core trace

theorem Fields.waiting_perform {player : Player} {caller : Nat}
    {request : Request} {operation : Operation}
    (fields : Fields player system.world system.trace)
    (run : Run config clock .noResets system)
    (performing : Performing config .noResets system caller request operation)
    {choice : Choice}
    (waiting : ((system.world.perform choice operation).2.cells player).state =
      .waiting) (field : ClaimField) :
    ((system.world.perform choice operation).2.cells player).field field =
      0 := by
  rcases cells_perform_cases system.world choice operation player with
    new | next
  · rw [new]
    cases field <;> rfl
  rw [next] at waiting ⊢
  rcases disturbed_or_undisturbed system player operation with
    ⟨site, rfl, success⟩ | undisturbed
  · rw [PlayerCells.next_field (by simp [Operation.stored?])]
    have current := exchange_succeeds_iff.mp success
    have permitted := performing.permitted
    simp [Core.perform, PlayerCells.next, success] at waiting
    cases site with
    | releaseClaim =>
        have phase : phaseOf caller player system.trace = .releasing :=
          performing.allowed
        obtain ⟨claim, inForce, rfl⟩ := Run.owns_of_noResets run
          (by rw [phase]; rfl : (phaseOf caller player system.trace).Active)
        rw [fields.claimed field claim inForce rfl, phase]
        cases field <;> rfl
    | reaperReset nowMs =>
        simp [Discipline.noResets, current, Exchange.current] at permitted
    | _ => cases waiting
  · rw [PlayerCells.next_undisturbed choice undisturbed] at waiting
    rw [PlayerCells.next_field]
    · exact fields.waiting waiting field
    · intro stores
      obtain ⟨claim, inForce, _⟩ := Run.owns_stored run performing stores
      rw [(Run.claimed_iff run).mpr ⟨claim, inForce⟩] at waiting
      cases waiting

theorem Run.fields (run : Run config clock .noResets system)
    (player : Player) : Fields player system.world system.trace := by
  refine Run.invariant run (Fields player) ⟨?_, fun _ => nofun⟩
    (fun _ _ holds => ⟨holds.waiting, holds.claimed⟩) ?_
  · intro _ field
    cases field <;> rfl
  · intro system caller request operation choice run performing fields
    refine ⟨fun waiting field =>
      fields.waiting_perform run performing waiting field, fun field => ?_⟩
    refine (fields.claimed field).perform (fun _ _ => .inl rfl) run performing
      ?_ ?_ choice
    · intro workerId nowMs _ waiting _
      exact fields.waiting waiting field
    · intro claim inForce _ stores
      exact (Run.owns_stored run performing stores).unique
        ⟨claim, inForce, rfl⟩

end Run

end Matchmaker
