import Matchmaker.Models

namespace Matchmaker

def matchSize : Nat := 10

def teamSize : Nat := 5

structure BalanceResult where
  teamA : List Player
  teamB : List Player
  teamDelta : Nat
  totalRating : Nat

/-- The ones of a `u16`. -/
def countOnes (mask : Nat) : Nat :=
  (List.range 16).countP mask.testBit

/-- The rating at a position; `players[i]` is read for `i < 10` only. -/
def ratingAt (players : List Player) (i : Nat) : Nat :=
  (players[i]?.map (·.skillRating)).getD 0

def maskSum (players : List Player) (mask : Nat) : Nat :=
  (((List.range matchSize).filter mask.testBit).map
    (ratingAt players)).sum % 2 ^ 32

structure BestSplit where
  mask : Nat
  delta : Nat
  aSum : Nat

/-- One turn of the loop over all masks. -/
def BestSplit.consider (players : List Player) (totalSum : Nat)
    (best : BestSplit) (mask : Nat) : BestSplit :=
  if countOnes mask ≠ teamSize then best
  else
    let aSum := maskSum players mask
    let delta := absDiff (2 * aSum % 2 ^ 32) totalSum
    if delta < best.delta ∨ delta = best.delta ∧ best.aSum < aSum then
      { mask, delta, aSum }
    else best

def bestSplit (players : List Player) (totalSum : Nat) : BestSplit :=
  (List.range 1024).foldl (BestSplit.consider players totalSum)
    { mask := 0, delta := 2 ^ 32 - 1, aSum := 0 }

/-- The players at the positions below ten whose bit has the given value. -/
def playersAt (players : List Player) (mask : Nat) (bit : Bool) :
    List Player :=
  ((List.range matchSize).filter fun i => mask.testBit i == bit).filterMap
    fun i => players[i]?

def exhaustiveBalance (players : List Player) : BalanceResult :=
  let totalSum :=
    ((List.range matchSize).map (ratingAt players)).sum % 2 ^ 32
  let best := bestSplit players totalSum
  { teamA := playersAt players best.mask true
    teamB := playersAt players best.mask false
    teamDelta := best.delta
    totalRating := totalSum }

end Matchmaker
