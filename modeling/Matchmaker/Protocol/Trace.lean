import Matchmaker.System

namespace Matchmaker

open Concurrent

/-! What a trace says about players, calls and matches. Traces list the latest
event first, and so do all lists below. -/

abbrev Trace := List (Event memory)

/-- A successful exchange on the state of a player. -/
structure Transfer where
  caller : Nat
  player : Player
  site : Exchange
deriving DecidableEq

def transferOf : Event memory → Option Transfer
  | ⟨caller, .exchange player site, true⟩ => some ⟨caller, player, site⟩
  | _ => none

def transfers (trace : Trace) : List Transfer :=
  trace.filterMap transferOf

/-- The exchange that put the player into its present state. -/
def lastTransfer (player : Player) (trace : Trace) : Option Transfer :=
  (transfers trace).find? fun transfer => transfer.player = player

/-- A claim: the call whose `try_claim` made it, and the arguments. -/
structure Claim where
  caller : Nat
  workerId : Nat
  claimedAt : Nat
deriving DecidableEq

def Transfer.claim? (transfer : Transfer) : Option Claim :=
  match transfer.site with
  | .tryClaim workerId nowMs => some ⟨transfer.caller, workerId, nowMs⟩
  | _ => none

/-- The claim on the player that is in force: no exchange has ended it yet. -/
def claimOf (player : Player) (trace : Trace) : Option Claim :=
  (lastTransfer player trace).bind Transfer.claim?

/-- Whether the Reaper has reset the player since the call claimed it. -/
def resetAfterClaim (caller : Nat) (player : Player) : List Transfer → Bool
  | [] => false
  | transfer :: earlier =>
      if transfer.player = player then
        match transfer.site with
        | .reaperReset _ => true
        | .tryClaim .. =>
            transfer.caller ≠ caller && resetAfterClaim caller player earlier
        | _ => resetAfterClaim caller player earlier
      else resetAfterClaim caller player earlier

def resetSince (caller : Nat) (player : Player) (trace : Trace) : Bool :=
  resetAfterClaim caller player (transfers trace)

/-- A match that an attempt pushed to the history. -/
structure Publication where
  caller : Nat
  teamA : List Player
  teamB : List Player
  record : Match
deriving DecidableEq

def Publication.players (publication : Publication) : List Player :=
  publication.teamA ++ publication.teamB

def publicationOf : Event memory → Option Publication
  | ⟨caller, .pushHistory teamA teamB record _, _⟩ =>
      some ⟨caller, teamA, teamB, record⟩
  | _ => none

def publications (trace : Trace) : List Publication :=
  trace.filterMap publicationOf

def published (trace : Trace) : List Player :=
  (publications trace).flatMap Publication.players

def storedOf : Event memory → Option Player
  | ⟨_, .primaryInsert player, _⟩ => some player
  | _ => none

def stored (trace : Trace) : List Player :=
  trace.filterMap storedOf

def indexedOf : Event memory → Option Player
  | ⟨_, .indexInsert player, _⟩ => some player
  | _ => none

def indexed (trace : Trace) : List Player :=
  trace.filterMap indexedOf

def removedOf : Event memory → Option (Nat × Player)
  | ⟨caller, .primaryRemove _, some player⟩ => some (caller, player)
  | _ => none

/-- The players that were taken out of the primary store, and by whom. -/
def removed (trace : Trace) : List (Nat × Player) :=
  trace.filterMap removedOf

def unindexedOf : Event memory → Option Player
  | ⟨_, .indexRemove player, _⟩ => some player
  | _ => none

def unindexed (trace : Trace) : List Player :=
  trace.filterMap unindexedOf

section Exchanges

variable {caller : Nat} {player other : Player} {site : Exchange}
  {trace : Trace}

@[simp] theorem transfers_succeeded :
    transfers (⟨caller, .exchange player site, true⟩ :: trace) =
      ⟨caller, player, site⟩ :: transfers trace := rfl

@[simp] theorem transfers_failed :
    transfers (⟨caller, .exchange player site, false⟩ :: trace) =
      transfers trace := rfl

theorem transfers_cons_of_none {event : Event memory}
    (quiet : transferOf event = none) :
    transfers (event :: trace) = transfers trace := by
  simp [transfers, quiet]

theorem resetSince_cons_of_none {event : Event memory}
    (quiet : transferOf event = none) :
    resetSince caller player (event :: trace) =
      resetSince caller player trace := by
  rw [resetSince, transfers_cons_of_none quiet, resetSince]

theorem lastTransfer_cons_of_none {event : Event memory}
    (quiet : transferOf event = none) :
    lastTransfer player (event :: trace) = lastTransfer player trace := by
  rw [lastTransfer, transfers_cons_of_none quiet, lastTransfer]

theorem lastTransfer_exchange {success : Bool} :
    lastTransfer other (⟨caller, .exchange player site, success⟩ :: trace) =
      if success && player = other then some ⟨caller, player, site⟩
      else lastTransfer other trace := by
  cases success with
  | false => simp [lastTransfer]
  | true => by_cases same : player = other <;> simp [lastTransfer, same]

theorem lastTransfer_mem {transfer : Transfer}
    (last : lastTransfer player trace = some transfer) :
    transfer ∈ transfers trace :=
  List.mem_of_find?_eq_some last

theorem lastTransfer_player {transfer : Transfer}
    (last : lastTransfer player trace = some transfer) :
    transfer.player = player := by
  simpa using List.find?_some last

theorem claimOf_eq_some_iff {claim : Claim} :
    claimOf player trace = some claim ↔
      lastTransfer player trace = some ⟨claim.caller, player,
        .tryClaim claim.workerId claim.claimedAt⟩ := by
  constructor
  · intro inForce
    obtain ⟨transfer, last, own⟩ := Option.bind_eq_some_iff.mp inForce
    have same := lastTransfer_player last
    obtain ⟨caller, other, site⟩ := transfer
    cases site with
    | tryClaim workerId nowMs =>
        cases own
        cases same
        exact last
    | _ => cases own
  · intro last
    simp [claimOf, last, Transfer.claim?]

end Exchanges

end Matchmaker
