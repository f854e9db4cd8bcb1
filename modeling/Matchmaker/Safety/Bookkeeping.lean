import Matchmaker.Protocol.Stamps

namespace Matchmaker

open Concurrent

/-! The claim fields agree with the claim. They are written in steps of their
own, so the stores of one claim can land on the next. -/

/-- The owner of a claim has written the field for it. -/
def Phase.Wrote : ClaimField → Phase → Bool
  | .claimedBy, .stamping .. | .claimedBy, .held .. => true
  | .claimTimestamp, .held .. => true
  | _, _ => false

/-- No call stores to a claim field of a player after the owner of the claim in
force has stored that field. -/
def Discipline.noLateStores : Discipline where
  starts := fun _ _ => true
  performs := fun system caller operation =>
    operation.stored?.all fun (player, field) =>
      (claimOf player system.trace).all fun claim =>
        claim.caller = caller ||
          !(phaseOf claim.caller player system.trace).Wrote field

/-- If the player is claimed and the owner of the claim has returned from
`try_claim` and has not begun to release or to match it, then the fields tell
that claim; a claim with a time is visible to the Reaper. -/
def FieldsTellClaim (system : System) (player : Player) : Prop :=
  ∀ claim ∈ claimOf player system.trace,
    (system.world.cells player).state = .claimed →
    phaseOf claim.caller player system.trace =
      .held claim.workerId claim.claimedAt →
    (system.world.cells player).claimedBy = claim.workerId ∧
      (system.world.cells player).claimTimestamp = claim.claimedAt ∧
      (1 ≤ claim.claimedAt → (system.world.cells player).claimTimestamp ≠ 0)

instance (system : System) (player : Player) :
    Decidable (FieldsTellClaim system player) := by
  unfold FieldsTellClaim
  infer_instance

theorem Moves.wrote {player : Player} {field : ClaimField}
    {operation : Operation} {result : operation.Result}
    {before after : Phase}
    (moved : Moves player operation result before after)
    (wrote : after.Wrote field) :
    before.Wrote field ∨ operation.stored? = some (player, field) := by
  cases moved with
  | stamp | hold =>
      cases field <;> first
        | exact .inr rfl
        | exact .inl rfl
        | cases wrote
  | stay => exact .inl wrote
  | _ => cases field <;> cases wrote

section Run

variable {config : Config} {clock : Clock} {system : System}

theorem Run.tells_wrote (run : Run config clock .noLateStores system)
    (player : Player) (field : ClaimField) :
    Tells (Phase.Wrote field) field player system.world system.trace := by
  apply Run.invariant run (Tells (Phase.Wrote field) field player) nofun
    (fun _ _ holds => holds)
  intro system caller request operation choice run performing holds
  refine holds.perform Moves.wrote run performing ?_ ?_ choice
  · intro workerId nowMs _ _ wrote
    cases field <;> cases wrote
  · intro claim inForce wrote stores
    have permitted := performing.permitted
    simpa [Discipline.noLateStores, stores, inForce, wrote, eq_comm]
      using permitted

/-- The claim fields tell the claim in force, as long as no store of another
call lands on a field that the owner has written. -/
theorem claim_fields_kept (run : Run config clock .noLateStores system)
    (player : Player) : FieldsTellClaim system player := by
  intro claim inForce _ held
  have claimedBy := Run.tells_wrote run player .claimedBy claim inForce
    (by rw [held]; rfl)
  have claimTimestamp := Run.tells_wrote run player .claimTimestamp claim
    inForce (by rw [held]; rfl)
  rw [held] at claimedBy claimTimestamp
  refine ⟨claimedBy, claimTimestamp, ?_⟩
  intro timed zero
  have told : (system.world.cells player).claimTimestamp = claim.claimedAt :=
    claimTimestamp
  omega

end Run

/-- A worker claims ten players and stalls. The Reaper resets one of them,
another worker claims it, and the Reaper clears the fields. -/
def lateClearing : List Action :=
  arrivals 10 1500 ++
    [.start (.attemptMatch 1), .start (.attemptMatch 2)] ++
    turns 11 36 ++ turns 10 66 ++
    [.tick 1000000000 1000, .start .reaperTick] ++ turns 12 6 ++
    turns 11 12 ++ turns 12 2

set_option maxRecDepth 100000 in
theorem exists_claim_fields_lost :
    ∃ system, Run .default ⟨0, 1000⟩ .free system ∧
      ∃ player ∈ system.world.primary.players,
        ¬ FieldsTellClaim system player := by
  obtain ⟨system, run, lost⟩ : ∃ system,
      Run .default ⟨0, 1000⟩ .free system ∧
        decide (∃ player ∈ system.world.primary.players,
          ¬ FieldsTellClaim system player) = true := by
    apply exists_run_of_play lateClearing
    decide +kernel
  exact ⟨system, run, of_decide_eq_true lost⟩

set_option maxRecDepth 100000 in
theorem claim_fields_kept_claimed :
    ∃ system, Run .default ⟨0, 1000⟩ .noLateStores system ∧
      ∃ player ∈ system.world.primary.players,
        (system.world.cells player).state = .claimed ∧
          FieldsTellClaim system player := by
  obtain ⟨system, run, claimed⟩ : ∃ system,
      Run .default ⟨0, 1000⟩ .noLateStores system ∧
        decide (∃ player ∈ system.world.primary.players,
          (system.world.cells player).state = .claimed) = true := by
    apply exists_run_of_play (arrivals 10 1500 ++
      .start (.attemptMatch 1) :: turns 10 66)
    decide +kernel
  obtain ⟨player, member, state⟩ := of_decide_eq_true claimed
  exact ⟨system, run, player, member, state, claim_fields_kept run player⟩

end Matchmaker
