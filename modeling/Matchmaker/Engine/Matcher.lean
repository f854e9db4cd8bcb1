import Matchmaker.Engine.Balancer
import Matchmaker.Engine.Relaxation

namespace Matchmaker

open Concurrent

/-- What a worker knows besides the shared core. -/
structure WorkerContext where
  workerId : Nat
  config : Config
  matchHistoryLimit : Nat

inductive MatchAttemptResult
  | success (completedMatch : Match)
  | poolEmpty
  | insufficientCandidates (found window seedMmr stage : Nat)
  | claimFailed (claimed needed : Nat)
deriving DecidableEq

structure WorkerState where
  consecutiveFailures : Nat
  currentSeedId : Option Uuid
deriving DecidableEq

namespace WorkerState

def new : WorkerState where
  consecutiveFailures := 0
  currentSeedId := none

def reset (_ : WorkerState) : WorkerState where
  consecutiveFailures := 0
  currentSeedId := none

/-- The counter is a `u32`. -/
def recordFailure (state : WorkerState) (seedId : Uuid) : WorkerState :=
  if state.currentSeedId = some seedId then
    { state with
      consecutiveFailures := (state.consecutiveFailures + 1) % 2 ^ 32 }
  else { consecutiveFailures := 1, currentSeedId := some seedId }

end WorkerState

def seedRetryLimit : Nat := 3

def matchHistoryLimit : Nat := 10000

def selectSeed (ctx : WorkerContext) (state : WorkerState) :
    Task (Option Player) := do
  match ← PlayerPool.oldestWaiting with
  | none => return none
  | some primarySeed =>
      if state.currentSeedId = some primarySeed.id ∧
          seedRetryLimit ≤ state.consecutiveFailures then
        let (excludeMin, excludeMax) ← scanBounds primarySeed.skillRating
          primarySeed.joinTimestamp ctx.config
        let alternate ←
          PlayerPool.oldestWaitingExcludingRange excludeMin excludeMax
        return alternate.or (some primarySeed)
      else
        return some primarySeed

/-- The claiming loop: walk the candidates until ten are claimed. -/
def claimCandidates (workerId nowMs : Nat) :
    List Player → List Player → Task (List Player)
  | [], claimed => return claimed
  | candidate :: rest, claimed => do
      if claimed.length = matchSize then
        return claimed
      else if ← candidate.tryClaim workerId nowMs then
        claimCandidates workerId nowMs rest (claimed ++ [candidate])
      else
        claimCandidates workerId nowMs rest claimed

def fetchAdd (counter : Counter) (amount : Nat) : Task Unit :=
  access (.fetchAdd counter amount)

def updateMetricsOnSuccess (completedMatch : Match) (waitTimesMs : List Nat)
    (skillSpread : Nat) : Task Unit := do
  fetchAdd .totalMatchesCreated 1
  fetchAdd .totalPlayersMatched matchSize
  access (.addQueueSize (-matchSize))
  fetchAdd .totalWaitTimeMs (waitTimesMs.sum % 2 ^ 64)
  fetchAdd .skillSpreadSum skillSpread
  fetchAdd .skillSpreadCount 1
  fetchAdd .teamDeltaSum completedMatch.teamDelta
  fetchAdd .teamDeltaCount 1

/-- The record of a match, once its ten players are marked. -/
def buildMatch (claimed : List Player) (balance : BalanceResult) :
    Task (Match × List Nat × Nat) := do
  let waitTimesMs ← claimed.mapM Player.settledWaitMs
  let avgWaitMs := waitTimesMs.sum % 2 ^ 64 / waitTimesMs.length
  let maxWaitMs := waitTimesMs.max?.getD 0
  let allRatings := claimed.map (·.skillRating)
  let skillSpread := allRatings.max?.getD 0 - allRatings.min?.getD 0
  let teamASnapshots ← balance.teamA.mapM PlayerSnapshot.capture
  let teamBSnapshots ← balance.teamB.mapM PlayerSnapshot.capture
  let matchId ← access .newV4
  let nowMs ← access .unixMs
  let completedMatch := Match.new matchId (.new teamASnapshots)
    (.new teamBSnapshots) skillSpread avgWaitMs maxWaitMs (nowMs / 1000)
  return (completedMatch, waitTimesMs, skillSpread)

/-- The rest of an attempt that has claimed its ten players. -/
def completeMatch (ctx : WorkerContext) (state : WorkerState)
    (claimed : List Player) : Task (MatchAttemptResult × WorkerState) := do
  let balance := exhaustiveBalance claimed
  forM claimed Player.markMatched
  let (completedMatch, waitTimesMs, skillSpread) ← buildMatch claimed balance
  forM claimed fun player => do
    let _ ← PlayerPool.remove player.id
  access (.pushHistory balance.teamA balance.teamB completedMatch
    ctx.matchHistoryLimit)
  updateMetricsOnSuccess completedMatch waitTimesMs skillSpread
  return (.success completedMatch, state.reset)

/-- Claim ten of the candidates, or give back those that were claimed. -/
def claimMatch (ctx : WorkerContext) (state : WorkerState) (seed : Player)
    (candidates : List Player) : Task (MatchAttemptResult × WorkerState) := do
  let nowMs ← access .unixMs
  let claimed ← claimCandidates ctx.workerId nowMs candidates []
  if claimed.length < matchSize then
    forM claimed Player.releaseClaim
    fetchAdd .matchAttemptsClaimFailed 1
    return (.claimFailed claimed.length matchSize,
      state.recordFailure seed.id)
  else
    completeMatch ctx state claimed

def attemptMatch (ctx : WorkerContext) (state : WorkerState) :
    Task (MatchAttemptResult × WorkerState) := do
  match ← selectSeed ctx state with
  | none => return (.poolEmpty, state)
  | some seed =>
      let (minRating, maxRating) ←
        scanBounds seed.skillRating seed.joinTimestamp ctx.config
      let stage ← relaxationStage seed.joinTimestamp ctx.config
      -- `u32` subtraction
      let window := (maxRating + 2 ^ 32 - minRating) % 2 ^ 32
      fetchAdd .workerCyclesTotal 1
      let candidates ← PlayerPool.rangeScan minRating maxRating
      if candidates.length < matchSize then
        fetchAdd .matchAttemptsInsufficient 1
        return (.insufficientCandidates candidates.length window
          seed.skillRating stage, state.recordFailure seed.id)
      else
        claimMatch ctx state seed candidates

end Matchmaker
