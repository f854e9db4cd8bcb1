import Matchmaker.Concurrent.Mirror
import Matchmaker.System
import Matchmaker.Words.Unsigned

namespace Matchmaker

open Concurrent Words

/-! The match path as a debug build runs it: an arithmetic overflow panics, and
so does a `debug_assert` that fails. -/

/-- Where an attempt may panic. -/
inductive Panic
  | ratingWindow
  | rangeBounds
  | tenPlayers
  | ratingSum
  | doubledSum
  | fivePlayers
  | skillSpread
  | waitTimeSum
  | noWaitTimes
deriving DecidableEq

abbrev CheckedTask := Checked memory Panic

namespace Panic

def onNone (panic : Panic) : Option α → Except Panic α
  | some value => .ok value
  | none => .error panic

def check (panic : Panic) (condition : Bool) : Except Panic Unit :=
  if condition then .ok () else .error panic

end Panic

namespace Checked

def BestSplit.consider (players : List Player) (totalSum : Nat)
    (best : BestSplit) (mask : Nat) : Except Panic BestSplit :=
  if countOnes mask ≠ teamSize then return best
  else do
    let aSum ← Panic.ratingSum.onNone (sum? 32
      (((List.range matchSize).filter mask.testBit).map (ratingAt players)))
    let doubled ← Panic.doubledSum.onNone (mul? 32 2 aSum)
    let delta := absDiff doubled totalSum
    return if delta < best.delta ∨ delta = best.delta ∧ best.aSum < aSum then
      { mask, delta, aSum }
    else best

def exhaustiveBalance (players : List Player) :
    Except Panic BalanceResult := do
  Panic.tenPlayers.check (players.length = matchSize)
  let totalSum ← Panic.ratingSum.onNone (sum? 32
    ((List.range matchSize).map (ratingAt players)))
  let best ← (List.range 1024).foldlM (BestSplit.consider players totalSum)
    { mask := 0, delta := 2 ^ 32 - 1, aSum := 0 }
  let teamA := playersAt players best.mask true
  let teamB := playersAt players best.mask false
  Panic.fivePlayers.check (teamA.length = teamSize)
  Panic.fivePlayers.check (teamB.length = teamSize)
  return { teamA, teamB, teamDelta := best.delta, totalRating := totalSum }

def Team.new (players : List PlayerSnapshot) : Except Panic Team := do
  Panic.fivePlayers.check (players.length = teamSize)
  let totalRating ← Panic.ratingSum.onNone (sum? 32
    (players.map (·.skillRating)))
  return { players, totalRating }

def rangeScan (minRating maxRating : Nat) : CheckedTask (List Player) := do
  let minRating := min minRating maxSkillRating
  let maxRating := min maxRating maxSkillRating
  let lower := (minRating, uuidNil)
  let upper := (maxRating, uuidMax)
  -- `BTreeMap::range` panics if its start is greater than its end
  Panic.rangeBounds.check (compareKeys lower upper).isLE
  let entries ← access (.indexRange lower upper)
  let candidates ← PlayerPool.scanEntries entries []
  return PlayerPool.sortCandidates candidates

def updateMetricsOnSuccess (completedMatch : Match) (waitTimesMs : List Nat)
    (skillSpread : Nat) : CheckedTask Unit := do
  fetchAdd .totalMatchesCreated 1
  fetchAdd .totalPlayersMatched matchSize
  access (.addQueueSize (-matchSize))
  let totalWait ← Panic.waitTimeSum.onNone (sum? 64 waitTimesMs)
  fetchAdd .totalWaitTimeMs totalWait
  fetchAdd .skillSpreadSum skillSpread
  fetchAdd .skillSpreadCount 1
  fetchAdd .teamDeltaSum completedMatch.teamDelta
  fetchAdd .teamDeltaCount 1

def buildMatch (claimed : List Player) (balance : BalanceResult) :
    CheckedTask (Match × List Nat × Nat) := do
  let waitTimesMs ← (claimed.mapM fun player =>
    liftM player.settledWaitMs : CheckedTask (List Nat))
  let waitSumMs ← Panic.waitTimeSum.onNone (sum? 64 waitTimesMs)
  let avgWaitMs ← Panic.noWaitTimes.onNone
    (checkedDiv waitSumMs waitTimesMs.length)
  let maxWaitMs := waitTimesMs.max?.getD 0
  let allRatings := claimed.map (·.skillRating)
  let skillSpread ← Panic.skillSpread.onNone
    (sub? (allRatings.max?.getD 0) (allRatings.min?.getD 0))
  let teamASnapshots ← (balance.teamA.mapM fun player =>
    liftM (PlayerSnapshot.capture player) : CheckedTask (List PlayerSnapshot))
  let teamBSnapshots ← (balance.teamB.mapM fun player =>
    liftM (PlayerSnapshot.capture player) : CheckedTask (List PlayerSnapshot))
  let teamA ← Team.new teamASnapshots
  let teamB ← Team.new teamBSnapshots
  let matchId ← access .newV4
  let nowMs ← access .unixMs
  let completedMatch := Match.new matchId teamA teamB skillSpread avgWaitMs
    maxWaitMs (nowMs / 1000)
  return (completedMatch, waitTimesMs, skillSpread)

def completeMatch (ctx : WorkerContext) (state : WorkerState)
    (claimed : List Player) :
    CheckedTask (MatchAttemptResult × WorkerState) := do
  let balance ← exhaustiveBalance claimed
  (forM claimed Player.markMatched : Task Unit)
  let (completedMatch, waitTimesMs, skillSpread) ← buildMatch claimed balance
  (forM claimed fun player => do
    let _ ← PlayerPool.remove player.id : Task Unit)
  access (.pushHistory balance.teamA balance.teamB completedMatch
    ctx.matchHistoryLimit)
  updateMetricsOnSuccess completedMatch waitTimesMs skillSpread
  return (.success completedMatch, state.reset)

def claimMatch (ctx : WorkerContext) (state : WorkerState) (seed : Player)
    (candidates : List Player) :
    CheckedTask (MatchAttemptResult × WorkerState) := do
  let nowMs ← access .unixMs
  let claimed ← claimCandidates ctx.workerId nowMs candidates []
  if claimed.length < matchSize then
    (forM claimed Player.releaseClaim : Task Unit)
    fetchAdd .matchAttemptsClaimFailed 1
    return (.claimFailed claimed.length matchSize,
      state.recordFailure seed.id)
  else
    completeMatch ctx state claimed

/-- Only the failure counter of the worker still wraps. -/
def attemptMatch (ctx : WorkerContext) (state : WorkerState) :
    CheckedTask (MatchAttemptResult × WorkerState) := do
  match ← (selectSeed ctx state : Task (Option Player)) with
  | none => return (.poolEmpty, state)
  | some seed =>
      let (minRating, maxRating) ←
        scanBounds seed.skillRating seed.joinTimestamp ctx.config
      let stage ← relaxationStage seed.joinTimestamp ctx.config
      let window ← Panic.ratingWindow.onNone (sub? maxRating minRating)
      fetchAdd .workerCyclesTotal 1
      let candidates ← rangeScan minRating maxRating
      if candidates.length < matchSize then
        fetchAdd .matchAttemptsInsufficient 1
        return (.insufficientCandidates candidates.length window
          seed.skillRating stage, state.recordFailure seed.id)
      else
        claimMatch ctx state seed candidates

end Checked

end Matchmaker
