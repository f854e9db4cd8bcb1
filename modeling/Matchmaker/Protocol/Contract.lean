import Matchmaker.Protocol.Trace

namespace Matchmaker

open Concurrent

/-! The protocol that the calls of the service follow. -/

/-- How far a call has got with a player. -/
inductive Phase
  | idle
  | claiming (workerId nowMs : Nat)
  | stamping (workerId nowMs : Nat)
  | held (workerId nowMs : Nat)
  | unclaiming
  | releasing
  | released
  | marking
  | marked
  | missed
  | evicted
  | suspected (claimTs : Nat)
  | reset
  | clearing
  | cleared
deriving DecidableEq

namespace Phase

/-- The call has claimed the player and neither given it back nor matched it. -/
def Active : Phase → Bool
  | .claiming .. | .stamping .. | .held .. => true
  | .unclaiming | .releasing | .marking => true
  | _ => false

/-- The Reaper has still to clear a field of the player. -/
def Clears : Phase → Bool
  | .reset | .clearing => true
  | _ => false

def exchanged (phase : Phase) : Exchange → Bool → Phase
  | .tryClaim workerId nowMs, true => .claiming workerId nowMs
  | .releaseClaim, _ => .released
  | .markMatched, true => .marked
  | .markMatched, false => .missed
  | .tryEvict, true => .evicted
  | .reaperReset _, true => .reset
  | _, _ => phase

def storedClaimedBy : Phase → Phase
  | .claiming workerId nowMs => .stamping workerId nowMs
  | .held .. => .unclaiming
  | .reset => .clearing
  | phase => phase

def storedClaimTimestamp : Phase → Phase
  | .stamping workerId nowMs => .held workerId nowMs
  | .unclaiming => .releasing
  | .clearing => .cleared
  | phase => phase

def next (phase : Phase) (player : Player) :
    (operation : Operation) → operation.Result → Phase
  | .exchange other site, success =>
      if other = player then phase.exchanged site success else phase
  | .storeClaimedBy other _, _ =>
      if other = player then phase.storedClaimedBy else phase
  | .storeClaimTimestamp other _, _ =>
      if other = player then phase.storedClaimTimestamp else phase
  | .storeMatchedAt other _, _ => if other = player then .marking else phase
  | .loadClaimTimestamp other, claimTs =>
      if other = player then .suspected claimTs else phase
  | _, _ => phase

end Phase

/-- What a call has still to remove from the pool: the players it matched or
evicted, and the one it has taken out of the primary store only. -/
structure Removal where
  pending : List Player
  halfway : Option Player
deriving DecidableEq

def Removal.none : Removal where
  pending := []
  halfway := Option.none

def Removal.next (removal : Removal) :
    (operation : Operation) → operation.Result → Removal
  | .exchange player .markMatched, _ =>
      { removal with pending := removal.pending ++ [player] }
  | .exchange player .tryEvict, true =>
      { removal with pending := removal.pending ++ [player] }
  | .primaryRemove _, result =>
      { pending := removal.pending.tail, halfway := result }
  | .indexRemove _, _ => { removal with halfway := Option.none }
  | _, _ => removal

/-- How far a call has got with adding a player. -/
inductive Enrolment
  | none
  | absent (id : Uuid)
  | created (player : Player)
  | stored (player : Player)
  | indexed (player : Player)
deriving DecidableEq

namespace Enrolment

def player? : Enrolment → Option Player
  | .created player | .stored player | .indexed player => some player
  | _ => Option.none

def next (enrolment : Enrolment) :
    (operation : Operation) → operation.Result → Enrolment
  | .primaryContains id, false => .absent id
  | .allocate .., player => .created player
  | .primaryInsert player, _ => .stored player
  | .indexInsert player, _ => .indexed player
  | _, _ => enrolment

end Enrolment

/-- The players an operation takes out of the stores for its caller. -/
def Operation.learnt : (operation : Operation) → operation.Result → List Player
  | .primaryGet _, found => found.toList
  | .primaryRemove _, found => found.toList
  | .primaryIter, players => players
  | .indexRange .., players => players
  | _, _ => []

/-- What a call has done so far. -/
structure Progress where
  phase : Player → Phase
  known : List Player
  removal : Removal
  enrolment : Enrolment
  nowMs : Option Nat
  published : List Player

namespace Progress

def start : Progress where
  phase := fun _ => .idle
  known := []
  removal := .none
  enrolment := .none
  nowMs := none
  published := []

def next (progress : Progress) (operation : Operation)
    (result : operation.Result) : Progress where
  phase := fun player => (progress.phase player).next player operation result
  known := progress.known ++ operation.learnt result
  removal := progress.removal.next operation result
  enrolment := progress.enrolment.next operation result
  nowMs :=
    match operation, result with
    | .unixMs, nowMs => some nowMs
    | _, _ => progress.nowMs
  published :=
    match operation with
    | .pushHistory teamA teamB _ _ => teamA ++ teamB
    | _ => progress.published

end Progress

/-- What a call was issued for. -/
inductive Role
  | enqueue (id : Uuid) (skillRating : Nat)
  | cancel (id : Uuid)
  | attemptMatch (workerId : Nat)
  | reaperTick (staleClaimTimeoutMs : Nat)
deriving DecidableEq

def Request.role (config : Config) : Request → Role
  | .enqueue id skillRating => .enqueue id skillRating
  | .cancel id => .cancel id
  | .attemptMatch workerId => .attemptMatch workerId
  | .reaperTick => .reaperTick config.staleClaimTimeoutMs

/-- When each exchange may be attempted. -/
def Exchange.Allowed (player : Player) (role : Role) (progress : Progress) :
    Exchange → Prop
  | .tryClaim workerId nowMs =>
      role = .attemptMatch workerId ∧ player ∈ progress.known ∧
        progress.phase player = .idle ∧ progress.nowMs = some nowMs
  | .releaseClaim => progress.phase player = .releasing
  | .markMatched => progress.phase player = .marking
  | .tryEvict =>
      role = .cancel player.id ∧ player ∈ progress.known ∧
        progress.phase player = .idle
  | .reaperReset nowMs =>
      ∃ timeout claimTs, role = .reaperTick timeout ∧
        progress.nowMs = some nowMs ∧
        progress.phase player = .suspected claimTs ∧ claimTs ≠ 0 ∧
        timeout < nowMs - claimTs

/-- The teams that an attempt may publish, and the record that describes them. -/
structure Publishes (progress : Progress) (teamA teamB : List Player)
    (record : Match) : Prop where
  once : progress.published = []
  removed : progress.removal = .none
  sizeA : teamA.length = teamSize
  sizeB : teamB.length = teamSize
  distinct : (teamA ++ teamB).Nodup
  players : ∀ player, player ∈ teamA ++ teamB ↔
    progress.phase player = .marked ∨ progress.phase player = .missed
  recordA : record.teamA.players.map (·.id) = teamA.map (·.id)
  recordB : record.teamB.players.map (·.id) = teamB.map (·.id)

def Operation.Allowed (role : Role) (progress : Progress) : Operation → Prop
  | .exchange player site => site.Allowed player role progress
  | .storeClaimedBy player value =>
      (∃ nowMs, progress.phase player = .claiming value nowMs) ∨
        value = 0 ∧ ((∃ workerId nowMs,
          progress.phase player = .held workerId nowMs) ∨
          progress.phase player = .reset)
  | .storeClaimTimestamp player value =>
      (∃ workerId, progress.phase player = .stamping workerId value) ∨
        value = 0 ∧ (progress.phase player = .unclaiming ∨
          progress.phase player = .clearing)
  | .storeMatchedAt player _ =>
      ∃ workerId nowMs, progress.phase player = .held workerId nowMs
  | .loadClaimTimestamp player =>
      (∃ timeout, role = .reaperTick timeout) ∧ player ∈ progress.known ∧
        progress.phase player = .idle
  | .primaryContains id =>
      (∃ skillRating, role = .enqueue id skillRating) ∧
        progress.enrolment = .none
  | .allocate id skillRating _ =>
      role = .enqueue id skillRating ∧ progress.enrolment = .absent id ∧
        skillRating ≤ maxSkillRating
  | .primaryInsert player => progress.enrolment = .created player
  | .indexInsert player => progress.enrolment = .stored player
  | .primaryRemove id =>
      progress.removal.halfway = none ∧
        ∃ player rest, progress.removal.pending = player :: rest ∧
          player.id = id
  | .indexRemove player => progress.removal.halfway = some player
  | .pushHistory teamA teamB record _ =>
      (∃ workerId, role = .attemptMatch workerId) ∧
        Publishes progress teamA teamB record
  | _ => True

/-- What the memory can be relied on to answer. -/
def Operation.Credible : (operation : Operation) → operation.Result → Prop
  | .allocate id skillRating _, player =>
      player.id = id ∧ player.skillRating = skillRating
  | .primaryGet id, found => ∀ player ∈ found, player.id = id
  | .primaryRemove id, found => ∀ player ∈ found, player.id = id
  | .primaryIter, players => players.Nodup
  | .indexRange .., players =>
      players.Nodup ∧ ∀ player ∈ players, player.skillRating ≤ maxSkillRating
  | _, _ => True

@[reducible] def protocol : Contract memory where
  Role := Role
  Ghost := Progress
  initial := .start
  next := Progress.next
  Allowed := Operation.Allowed
  Credible := Operation.Credible

abbrev progressOf (caller : Nat) (trace : Trace) : Progress :=
  protocol.ghost caller trace

abbrev phaseOf (caller : Nat) (player : Player) (trace : Trace) : Phase :=
  (progressOf caller trace).phase player

end Matchmaker
