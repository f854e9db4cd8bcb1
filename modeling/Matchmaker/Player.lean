import Matchmaker.Memory

namespace Matchmaker

open Concurrent

/-! Methods of a player, one atomic access after the other. -/

def elapsedMs (joinTimestamp : Instant) : Task Nat := do
  let now ← access .instantNow
  return Instant.msSince now joinTimestamp

namespace Player

def new (id : Uuid) (skillRating : Nat) : Task Player := do
  let joinTimestamp ← access .instantNow
  access (.allocate id skillRating joinTimestamp)

def loadState (player : Player) : Task PlayerState :=
  access (.loadState player)

def isWaiting (player : Player) : Task Bool := do
  return decide ((← player.loadState) = .waiting)

def tryClaim (player : Player) (workerId nowMs : Nat) : Task Bool := do
  if ← access (.exchange player (.tryClaim workerId nowMs)) then
    access (.storeClaimedBy player workerId)
    access (.storeClaimTimestamp player nowMs)
    return true
  else
    return false

def releaseClaim (player : Player) : Task Unit := do
  access (.storeClaimedBy player 0)
  access (.storeClaimTimestamp player 0)
  -- the outcome of the exchange is dropped by `.ok()`
  let _ ← access (.exchange player .releaseClaim)

def markMatched (player : Player) : Task Unit := do
  let now ← access .instantNow
  access (.storeMatchedAt player now)
  -- the outcome of the exchange is dropped by `.ok()`
  let _ ← access (.exchange player .markMatched)

def tryEvict (player : Player) : Task Bool :=
  access (.exchange player .tryEvict)

def waitMs (player : Player) : Task Nat :=
  elapsedMs player.joinTimestamp

def matchedWaitMs (player : Player) : Task (Option Nat) := do
  let matchedAt ← access (.loadMatchedAt player)
  return matchedAt.map fun matched => matched.msSince player.joinTimestamp

/-- `matched_wait_ms().unwrap_or_else(|| wait_ms())`. -/
def settledWaitMs (player : Player) : Task Nat := do
  match ← player.matchedWaitMs with
  | some wait => return wait
  | none => player.waitMs

end Player

def PlayerSnapshot.capture (player : Player) : Task PlayerSnapshot := do
  let waitMs ← player.settledWaitMs
  return { id := player.id, skillRating := player.skillRating, waitMs }

end Matchmaker
