import Matchmaker.Concurrent.Reachability
import Matchmaker.Workers

namespace Matchmaker

open Concurrent

/-! The running service: any number of API calls, workers and reaper ticks over
one core, interleaved access by access. -/

inductive Request
  | enqueue (id : Uuid) (skillRating : Nat)
  | cancel (id : Uuid)
  | attemptMatch (workerId : Nat)
  | reaperTick
deriving DecidableEq

inductive Response
  | enqueue (outcome : Except EnqueueError Nat)
  | cancel (outcome : Except CancelError Unit)
  | attemptMatch (outcome : MatchAttemptResult) (state : WorkerState)
  | reaperTick

abbrev System := Pool semantics Request Response

abbrev SystemCall := Call memory Request Response

def System.new (clock : Clock) : System where
  world := Core.new clock
  calls := []
  trace := []

/-- The state a worker was left in by its calls so far, unless one of them is
still running. -/
def workerState (workerId : Nat) (calls : List SystemCall) :
    Option WorkerState :=
  calls.foldl
    (fun state call =>
      if call.request = .attemptMatch workerId then
        match call.program with
        | .pure (.attemptMatch _ state) => some state
        | _ => none
      else state)
    (some .new)

def reaperIdle (calls : List SystemCall) : Bool :=
  calls.all fun call =>
    call.request ≠ .reaperTick || call.program.returned?.isSome

/-- The program of a new call. Workers and the reaper run one call at a time. -/
def System.program (config : Config) (system : System) :
    Request → Option (Task Response)
  | .enqueue id skillRating =>
      some (.enqueue <$> MatchmakerCore.enqueue id skillRating)
  | .cancel id => some (.cancel <$> MatchmakerCore.cancel id)
  | .attemptMatch workerId =>
      (workerState workerId system.calls).map fun state =>
        (fun outcome => .attemptMatch outcome.1 outcome.2) <$>
          Matchmaker.attemptMatch
            { workerId, config, matchHistoryLimit } state
  | .reaperTick =>
      if reaperIdle system.calls then
        some ((fun _ => .reaperTick) <$>
          Matchmaker.reaperTick config.staleClaimTimeoutMs)
      else none

inductive Action
  | start (request : Request)
  | step (caller : Nat) (choice : Choice)
  | tick (instant unixMs : Nat)

def Core.advanceClock (core : Core) (instant unixMs : Nat) : Core :=
  { core with clock :=
    { instant := core.clock.instant + instant
      unixMs := core.clock.unixMs + unixMs } }

def System.step (config : Config) (system : System) : Action → Option System
  | .start request =>
      (system.program config request).map (system.launch request)
  | .step caller choice => system.advance caller choice
  | .tick instant unixMs =>
      some { system with world := system.world.advanceClock instant unixMs }

end Matchmaker
