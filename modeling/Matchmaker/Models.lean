import Mathlib.Algebra.GroupWithZero.Nat
import Mathlib.Data.Prod.Lex
import Mathlib.Order.Fin.Basic
import Mathlib.Data.Fintype.Card

namespace Matchmaker

/-- Sixteen bytes, ordered as the big-endian number they spell. -/
abbrev Uuid := Fin (2 ^ 128)

instance uuidNonempty : NeZero (2 ^ 128) := ⟨by decide⟩

/-- A reading of the monotonic clock, in nanoseconds. -/
abbrev Instant := Nat

/-- `earlier.duration_since(later)` is zero, and `as u64` truncates. -/
def Instant.msSince (now earlier : Instant) : Nat :=
  (now - earlier) / 1000000 % 2 ^ 64

inductive PlayerState
  | waiting
  | claimed
  | matched
  | evicted
deriving DecidableEq

/-- An `Arc<Player>`: which allocation it points to, and the fields of the
player that never change after construction. -/
structure Player where
  address : Nat
  id : Uuid
  skillRating : Nat
  joinTimestamp : Instant
deriving DecidableEq

/-- The fields of a player that other threads may write. -/
structure PlayerCells where
  state : PlayerState
  claimedBy : Nat
  claimTimestamp : Nat
  matchedAt : Option Instant
deriving DecidableEq

def PlayerCells.new : PlayerCells where
  state := .waiting
  claimedBy := 0
  claimTimestamp := 0
  matchedAt := none

namespace Player

/-- The order of seeds and candidates: `join_timestamp`, then `skill_rating`,
then `id`. -/
def seedKey (player : Player) : Nat ×ₗ (Nat ×ₗ Uuid) :=
  toLex (player.joinTimestamp, toLex (player.skillRating, player.id))

/-- The composite key of the rating index. -/
def ratingKey (player : Player) : Nat × Uuid :=
  (player.skillRating, player.id)

end Player

structure PlayerSnapshot where
  id : Uuid
  skillRating : Nat
  waitMs : Nat
deriving DecidableEq

structure Team where
  players : List PlayerSnapshot
  totalRating : Nat
deriving DecidableEq

/-- The sum is taken in `u32`. -/
def Team.new (players : List PlayerSnapshot) : Team where
  players := players
  totalRating := (players.map (·.skillRating)).sum % 2 ^ 32

structure Match where
  matchId : Uuid
  teamA : Team
  teamB : Team
  teamDelta : Nat
  skillSpread : Nat
  avgWaitMs : Nat
  maxWaitMs : Nat
  formedAtUnix : Nat
deriving DecidableEq

def absDiff (left right : Nat) : Nat :=
  if left < right then right - left else left - right

/-- `formed_at_unix` is read from the clock by the caller. -/
def Match.new (matchId : Uuid) (teamA teamB : Team)
    (skillSpread avgWaitMs maxWaitMs formedAtUnix : Nat) : Match where
  matchId := matchId
  teamA := teamA
  teamB := teamB
  teamDelta := absDiff teamA.totalRating teamB.totalRating
  skillSpread := skillSpread
  avgWaitMs := avgWaitMs
  maxWaitMs := maxWaitMs
  formedAtUnix := formedAtUnix

end Matchmaker
