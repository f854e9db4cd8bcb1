import Matchmaker.Engine.Queue

namespace Matchmaker

open Concurrent

/-- The body of the scan: reset one player if its claim looks stale, and say
whether that was done. -/
def reapPlayer (nowMs staleClaimTimeoutMs : Nat) (player : Player) :
    Task Bool := do
  if (← player.loadState) ≠ .claimed then
    return false
  else
    let claimTs ← access (.loadClaimTimestamp player)
    if claimTs = 0 then
      return false
    else if staleClaimTimeoutMs < nowMs - claimTs then
      let _ ← access (.loadClaimedBy player)
      if ← access (.exchange player (.reaperReset nowMs)) then
        access (.storeClaimedBy player 0)
        access (.storeClaimTimestamp player 0)
        return true
      else
        return false
    else
      return false

def reapPlayers (nowMs staleClaimTimeoutMs : Nat) :
    List Player → Nat → Task Nat
  | [], recovered => return recovered
  | player :: rest, recovered => do
      if ← reapPlayer nowMs staleClaimTimeoutMs player then
        reapPlayers nowMs staleClaimTimeoutMs rest (recovered + 1)
      else
        reapPlayers nowMs staleClaimTimeoutMs rest recovered

def reaperTick (staleClaimTimeoutMs : Nat) : Task Unit := do
  let nowMs ← access .unixMs
  let allPlayers ← PlayerPool.allPlayers
  let recovered ← reapPlayers nowMs staleClaimTimeoutMs allPlayers 0
  if 0 < recovered then
    fetchAdd .totalStaleClaimsRecovered recovered

end Matchmaker
