import Matchmaker.Checked.Attempt

namespace Matchmaker

open Concurrent

/-! The running service of a debug build. -/

abbrev CheckedSystem := Pool semantics Request (Except Panic Response)

abbrev CheckedCall := Call memory Request (Except Panic Response)

namespace CheckedSystem

def new (clock : Clock) : CheckedSystem where
  world := Core.new clock
  calls := []
  trace := []

/-- A worker whose call has panicked starts no other one. -/
def workerState (workerId : Nat) (calls : List CheckedCall) :
    Option WorkerState :=
  calls.foldl
    (fun state call =>
      if call.request = .attemptMatch workerId then
        match call.program with
        | .pure (.ok (.attemptMatch _ state)) => some state
        | _ => none
      else state)
    (some .new)

def reaperIdle (calls : List CheckedCall) : Bool :=
  calls.all fun call =>
    call.request ≠ .reaperTick || call.program.returned?.isSome

def program (config : Config) (system : CheckedSystem) :
    Request → Option (CheckedTask Response)
  | .enqueue id skillRating =>
      some (liftM (Response.enqueue <$> MatchmakerCore.enqueue id skillRating))
  | .cancel id => some (liftM (Response.cancel <$> MatchmakerCore.cancel id))
  | .attemptMatch workerId =>
      (workerState workerId system.calls).map fun state =>
        (fun outcome => .attemptMatch outcome.1 outcome.2) <$>
          Checked.attemptMatch { workerId, config, matchHistoryLimit } state
  | .reaperTick =>
      if reaperIdle system.calls then
        some (liftM ((fun _ => Response.reaperTick) <$>
          Matchmaker.reaperTick config.staleClaimTimeoutMs))
      else none

def step (config : Config) (system : CheckedSystem) :
    Action → Option CheckedSystem
  | .start request =>
      (system.program config request).map (system.launch request)
  | .step caller choice => system.advance caller choice
  | .tick instant unixMs =>
      some { system with world := system.world.advanceClock instant unixMs }

end CheckedSystem

/-- A state that the service of a debug build can reach. -/
abbrev CheckedRun (config : Config) (clock : Clock) : CheckedSystem → Prop :=
  Reachable (CheckedSystem.step config) (CheckedSystem.new clock)
    fun _ _ => True

end Matchmaker
