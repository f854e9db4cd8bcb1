import Matchmaker.Concurrent.Observers
import Matchmaker.Protocol.Runs

namespace Matchmaker

open Concurrent

/-! The three endpoints that only read: each takes its values one after the
other, while the service goes on. -/

inductive Sight
  | load (counter : Counter)
  | loadQueueSize
  | recentMatches (limit : Nat)
  | instantNow
deriving DecidableEq

@[reducible] def Sight.Result : Sight → Type
  | .load _ => Nat
  | .loadQueueSize => Int
  | .recentMatches _ => List Match
  | .instantNow => Instant

def Core.look (core : Core) : (sight : Sight) → sight.Result
  | .load counter => core.metrics.load counter
  | .loadQueueSize => core.metrics.currentQueueSize
  | .recentMatches limit => MatchmakerCore.recentMatches core limit
  | .instantNow => core.clock.instant

@[reducible] def sights : Sights System where
  signature := ⟨Sight, Sight.Result⟩
  look := fun system sight => system.world.look sight

abbrev Reading := Program sights.signature

abbrev glance (sight : Sight) : Reading sight.Result :=
  @Program.request sights.signature sight

namespace MatchmakerCore

/-- `Metrics::snapshot`, in the order of its loads. -/
def metricsSnapshot : Reading MetricsSnapshot := do
  let totalPlayersMatched ← glance (.load .totalPlayersMatched)
  let skillSpreadCount ← glance (.load .skillSpreadCount)
  let teamDeltaCount ← glance (.load .teamDeltaCount)
  let avgWaitMs := (checkedDiv (← glance (.load .totalWaitTimeMs))
    totalPlayersMatched).getD 0
  let avgSkillSpread := (checkedDiv (← glance (.load .skillSpreadSum))
    skillSpreadCount).getD 0
  let avgTeamDelta := (checkedDiv (← glance (.load .teamDeltaSum))
    teamDeltaCount).getD 0
  return {
    totalPlayersEnqueued := ← glance (.load .totalPlayersEnqueued)
    totalPlayersCancelled := ← glance (.load .totalPlayersCancelled)
    totalMatchesCreated := ← glance (.load .totalMatchesCreated)
    totalPlayersMatched
    matchAttemptsInsufficient :=
      ← glance (.load .matchAttemptsInsufficient)
    matchAttemptsClaimFailed := ← glance (.load .matchAttemptsClaimFailed)
    workerCyclesTotal := ← glance (.load .workerCyclesTotal)
    totalStaleClaimsRecovered :=
      ← glance (.load .totalStaleClaimsRecovered)
    currentQueueSize := ← glance .loadQueueSize
    totalWaitTimeMs := ← glance (.load .totalWaitTimeMs)
    avgWaitMs
    avgSkillSpread
    avgTeamDelta }

def playersWaiting : Reading Int :=
  glance .loadQueueSize

def totalMatchesFormed : Reading Nat :=
  glance (.load .totalMatchesCreated)

def uptimeSecs (startedAt : Instant) : Reading Nat := do
  return ((← glance .instantNow) - startedAt) / 1000000000

end MatchmakerCore

structure HealthResponse where
  status : String
  playersWaiting : Int
  uptimeSecs : Nat
deriving DecidableEq

structure MatchesResponse where
  matchList : List Match
  totalMatchesFormed : Nat
deriving DecidableEq

def healthHandler (startedAt : Instant) : Reading HealthResponse := do
  return {
    status := "ok"
    playersWaiting := ← MatchmakerCore.playersWaiting
    uptimeSecs := ← MatchmakerCore.uptimeSecs startedAt }

def metricsHandler : Reading MetricsSnapshot :=
  MatchmakerCore.metricsSnapshot

def defaultLimit : Nat := 20

def matchesHandler (limit : Option Nat) : Reading MatchesResponse := do
  let limit := max (limit.getD defaultLimit) 1
  let matchList ← glance (.recentMatches limit)
  let total ← MatchmakerCore.totalMatchesFormed
  return { matchList, totalMatchesFormed := total }

inductive ReadRequest
  | health
  | metrics
  | recent (limit : Option Nat)
deriving DecidableEq

inductive ReadResponse
  | health (response : HealthResponse)
  | metrics (snapshot : MetricsSnapshot)
  | recent (response : MatchesResponse)
deriving DecidableEq

/-- The program of a read request to a service that was started at `startedAt`. -/
def readProgram (startedAt : Instant) : ReadRequest → Reading ReadResponse
  | .health => .health <$> healthHandler startedAt
  | .metrics => .metrics <$> metricsHandler
  | .recent limit => .recent <$> matchesHandler limit

abbrev ReadSystem := Watched sights ReadRequest ReadResponse

def ReadSystem.permits (discipline : Discipline) (watched : ReadSystem) :
    Observing Action ReadRequest → Bool
  | .move action => discipline.permits watched.state action
  | _ => true

def ReadSystem.play (config : Config) (clock : Clock) (discipline : Discipline)
    (watched : ReadSystem) (actions : List (Observing Action ReadRequest)) :
    Option ReadSystem :=
  schedule (Watched.step (System.step config) (readProgram clock.instant))
    (ReadSystem.permits discipline) watched actions

/-- A request that was answered, with the answer. -/
def ReadSystem.answer? (watched : ReadSystem) (watch : Nat) :
    Option (ReadRequest × ReadResponse) :=
  watched.watches[watch]?.bind fun watch =>
    watch.program.returned?.map fun response => (watch.request, response)

theorem ReadSystem.exists_of_answer {watched : ReadSystem} {watch : Nat}
    {request : ReadRequest} {response : ReadResponse}
    (answered : watched.answer? watch = some (request, response)) :
    ∃ opened, watched.watches[watch]? =
      some ⟨request, opened, .pure response⟩ := by
  obtain ⟨⟨asked, opened, program⟩, found, returned⟩ :=
    Option.bind_eq_some_iff.mp answered
  cases program with
  | perform sight next => cases returned
  | pure value =>
      cases returned
      exact ⟨opened, found⟩

/-- Later in a run of the service with any number of read requests under way. -/
abbrev ReadLater (config : Config) (clock : Clock) (discipline : Discipline) :
    ReadSystem → ReadSystem → Prop := fun first =>
  Reachable (Watched.step (System.step config) (readProgram clock.instant))
    first (Watched.Permits fun system action =>
      discipline.permits system action = true)

abbrev ReadRun (config : Config) (clock : Clock) (discipline : Discipline) :
    ReadSystem → Prop :=
  ReadLater config clock discipline ⟨System.new clock, []⟩

theorem ReadLater.played {config : Config} {clock : Clock}
    {discipline : Discipline} {first second : ReadSystem}
    {actions : List (Observing Action ReadRequest)}
    (ran : ReadSystem.play config clock discipline first actions =
      some second) : ReadLater config clock discipline first second := by
  apply Reachable.schedule ?_ .start ran
  intro watched action permitted
  cases action with
  | move action => exact permitted
  | _ => exact trivial

/-- Later in the same run. -/
abbrev Later (config : Config) (discipline : Discipline) :
    System → System → Prop :=
  Leads (System.step config) fun system action =>
    discipline.permits system action = true

end Matchmaker
