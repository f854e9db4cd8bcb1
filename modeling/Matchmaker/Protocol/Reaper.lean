import Matchmaker.Protocol.Ends

namespace Matchmaker

open Concurrent

/-! There is one Reaper, and it clears a player it has reset before it looks at
another claim. -/

/-- The call has read the claim timestamp of the player. -/
def Phase.Reaps : Phase → Bool
  | .suspected _ | .reset | .clearing | .cleared => true
  | _ => false

theorem Phase.reaps_of_clears {phase : Phase} (clears : phase.Clears) :
    phase.Reaps := by
  cases phase <;> first
    | rfl
    | cases clears

theorem Moves.reaps {player : Player} {operation : Operation}
    {result : operation.Result} {before after : Phase}
    (moved : Moves player operation result before after)
    (reaps : after.Reaps) :
    before.Reaps ∨ operation = .loadClaimTimestamp player := by
  cases moved with
  | suspect => exact .inr rfl
  | stay => exact .inl reaps
  | _ => first
    | exact .inl rfl
    | cases reaps

theorem Request.reaperTick_of_role {config : Config} {request : Request}
    {timeout : Nat} (role : request.role config = .reaperTick timeout) :
    request = .reaperTick := by
  cases request <;> first
    | rfl
    | cases role

section Run

variable {config : Config} {clock : Clock} {discipline : Discipline}
  {system : System}

theorem Run.reaps (run : Run config clock discipline system) {caller : Nat}
    {player : Player} (reaps : (phaseOf caller player system.trace).Reaps) :
    ∃ program, system.calls[caller]? = some ⟨.reaperTick, program⟩ := by
  obtain ⟨⟨_, program⟩, found, rfl⟩ := @Run.requested _ _ _ _ run
    (fun progress => (progress.phase player).Reaps) (· = .reaperTick)
    (by intro reaps; cases reaps)
    (by
      intro system caller request operation choice performing reaps
      rcases (performing.moves player choice).reaps reaps with before | rfl
      · exact .inl before
      · obtain ⟨timeout, role⟩ := performing.allowed.1
        exact .inr (Request.reaperTick_of_role role))
    caller reaps
  exact ⟨program, found⟩

/-- A tick of the Reaper that has not returned. -/
def ReaperBusy (call : SystemCall) : Prop :=
  call.request = .reaperTick ∧ call.program.returned? = none

theorem Run.one_reaper (run : Run config clock discipline system) :
    system.Exclusive ReaperBusy := by
  apply Run.exclusive run
  · intro request operation next result busy
    exact ⟨busy.1, rfl⟩
  · intro system request task _ launched busy call member running
    obtain rfl : request = .reaperTick := busy.1
    rw [System.program] at launched
    split at launched
    · rename_i idle
      have ended := List.all_eq_true.mp idle call member
      simp [running.1, running.2] at ended
    · cases launched

theorem Run.clears_busy (run : Run config clock discipline system)
    {caller : Nat} {player : Player}
    (clears : (phaseOf caller player system.trace).Clears) :
    ∃ call, system.calls[caller]? = some call ∧ ReaperBusy call := by
  obtain ⟨program, found⟩ := Run.reaps run (Phase.reaps_of_clears clears)
  cases program with
  | perform operation next => exact ⟨_, found, rfl, rfl⟩
  | pure response =>
      have rested := Run.rested run found rfl
      rw [rested.cleared player] at clears
      cases clears

end Run

end Matchmaker
