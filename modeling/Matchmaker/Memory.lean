import Mathlib.Data.List.AList
import Std.Data.TreeMap.Lemmas
import Matchmaker.Concurrent.Pool
import Matchmaker.Metrics
import Matchmaker.Models

namespace Matchmaker

open Concurrent

/-! Shared memory of one `MatchmakerCore`, and the atomic accesses to it. -/

/-- A `compare_exchange` on a player's state, named by the function it stands
in. The arguments of that function are recorded for the trace only. -/
inductive Exchange
  | tryClaim (workerId nowMs : Nat)
  | releaseClaim
  | markMatched
  | tryEvict
  | reaperReset (nowMs : Nat)
deriving DecidableEq

def Exchange.current : Exchange → PlayerState
  | .tryClaim .. => .waiting
  | .releaseClaim => .claimed
  | .markMatched => .claimed
  | .tryEvict => .waiting
  | .reaperReset .. => .claimed

def Exchange.new : Exchange → PlayerState
  | .tryClaim .. => .claimed
  | .releaseClaim => .waiting
  | .markMatched => .matched
  | .tryEvict => .evicted
  | .reaperReset .. => .waiting

inductive Operation
  | exchange (player : Player) (site : Exchange)
  | loadState (player : Player)
  | loadClaimedBy (player : Player)
  | loadClaimTimestamp (player : Player)
  | loadMatchedAt (player : Player)
  | storeClaimedBy (player : Player) (value : Nat)
  | storeClaimTimestamp (player : Player) (value : Nat)
  | storeMatchedAt (player : Player) (value : Instant)
  | instantNow
  | unixMs
  | newV4
  | allocate (id : Uuid) (skillRating : Nat) (joinTimestamp : Instant)
  | primaryGet (id : Uuid)
  | primaryContains (id : Uuid)
  | primaryInsert (player : Player)
  | primaryRemove (id : Uuid)
  | primaryIter
  | primaryLen
  | indexInsert (player : Player)
  | indexRemove (player : Player)
  | indexRange (lower upper : Nat × Uuid)
  | upgrade (player : Player)
  | pushHistory (teamA teamB : List Player) (record : Match) (limit : Nat)
  | fetchAdd (counter : Counter) (amount : Nat)
  | addQueueSize (amount : Int)

@[reducible] def Operation.Result : Operation → Type
  | .exchange .. => Bool
  | .loadState _ => PlayerState
  | .loadClaimedBy _ => Nat
  | .loadClaimTimestamp _ => Nat
  | .loadMatchedAt _ => Option Instant
  | .storeClaimedBy .. => Unit
  | .storeClaimTimestamp .. => Unit
  | .storeMatchedAt .. => Unit
  | .instantNow => Instant
  | .unixMs => Nat
  | .newV4 => Uuid
  | .allocate .. => Player
  | .primaryGet _ => Option Player
  | .primaryContains _ => Bool
  | .primaryInsert _ => Unit
  | .primaryRemove _ => Option Player
  | .primaryIter => List Player
  | .primaryLen => Nat
  | .indexInsert _ => Unit
  | .indexRemove _ => Unit
  | .indexRange .. => List Player
  | .upgrade _ => Bool
  | .pushHistory .. => Unit
  | .fetchAdd .. => Unit
  | .addQueueSize _ => Unit

@[reducible] def memory : Signature where
  Operation := Operation
  Result := Operation.Result

abbrev Task := Program memory

abbrev access (operation : Operation) : Task operation.Result :=
  @Program.request memory operation

/-- Tuples of the rating index compare by rating, then by identifier. -/
abbrev compareKeys : Nat × Uuid → Nat × Uuid → Ordering :=
  compareLex (compareOn Prod.fst) (compareOn Prod.snd)

instance : Std.TransCmp compareKeys := inferInstance

theorem compareKeys_eq_iff {left right : Nat × Uuid} :
    compareKeys left right = .eq ↔ left = right := by
  obtain ⟨leftRating, leftId⟩ := left
  obtain ⟨rightRating, rightId⟩ := right
  simp [compareKeys, compareLex, compareOn, Prod.ext_iff]

instance : Std.LawfulEqCmp compareKeys where
  eq_of_compare := compareKeys_eq_iff.mp

abbrev Primary := AList fun _ : Uuid => Player

abbrev RatingIndex := Std.TreeMap (Nat × Uuid) Player compareKeys

structure Clock where
  instant : Instant
  unixMs : Nat
deriving DecidableEq

structure Core where
  cells : Player → PlayerCells
  allocated : Nat
  primary : Primary
  index : RatingIndex
  history : List Match
  metrics : Metrics
  clock : Clock

def Core.new (clock : Clock) : Core where
  cells := fun _ => .new
  allocated := 0
  primary := ∅
  index := ∅
  history := []
  metrics := .new
  clock := clock

/-- What an operation finds outside the program's control: whether a player
that has left the primary store is kept alive by some other call, the bits of a
fresh identifier, and the order in which a walk over the primary store meets
its entries. -/
structure Choice where
  keptAlive : Bool
  uuid : Uuid
  arrange : List Player → List Player

def Choice.walk (choice : Choice) (players : List Player) : List Player :=
  if (choice.arrange players).isPerm players then choice.arrange players
  else players

def Primary.players (primary : Primary) : List Player :=
  primary.entries.map (·.2)

namespace Core

def setCells (core : Core) (player : Player)
    (update : PlayerCells → PlayerCells) : Core :=
  { core with
    cells := Function.update core.cells player (update (core.cells player)) }

def exchange (core : Core) (player : Player) (site : Exchange) :
    Bool × Core :=
  if (core.cells player).state = site.current then
    (true, core.setCells player fun cells => { cells with state := site.new })
  else (false, core)

/-- `push_back`, then `pop_front` while over the limit. -/
def pushHistory (core : Core) (record : Match) (limit : Nat) : Core :=
  { core with
    history := (core.history ++ [record]).drop
      (core.history.length + 1 - limit) }

def perform (choice : Choice) (core : Core) :
    (operation : Operation) → operation.Result × Core
  | .exchange player site => core.exchange player site
  | .loadState player => ((core.cells player).state, core)
  | .loadClaimedBy player => ((core.cells player).claimedBy, core)
  | .loadClaimTimestamp player => ((core.cells player).claimTimestamp, core)
  | .loadMatchedAt player => ((core.cells player).matchedAt, core)
  | .storeClaimedBy player value =>
      ((), core.setCells player fun cells => { cells with claimedBy := value })
  | .storeClaimTimestamp player value =>
      ((), core.setCells player fun cells =>
        { cells with claimTimestamp := value })
  | .storeMatchedAt player value =>
      ((), core.setCells player fun cells =>
        { cells with matchedAt := some value })
  | .instantNow => (core.clock.instant, core)
  | .unixMs => (core.clock.unixMs, core)
  | .newV4 => (choice.uuid, core)
  | .allocate id skillRating joinTimestamp =>
      let player : Player :=
        { address := core.allocated, id, skillRating, joinTimestamp }
      (player, { core.setCells player fun _ => .new with
        allocated := core.allocated + 1 })
  | .primaryGet id => (core.primary.lookup id, core)
  | .primaryContains id => ((core.primary.lookup id).isSome, core)
  | .primaryInsert player =>
      ((), { core with primary := core.primary.insert player.id player })
  | .primaryRemove id =>
      (core.primary.lookup id, { core with primary := core.primary.erase id })
  | .primaryIter => (choice.walk core.primary.players, core)
  | .primaryLen => (core.primary.entries.length, core)
  | .indexInsert player =>
      ((), { core with index := core.index.insert player.ratingKey player })
  | .indexRemove player =>
      ((), { core with index := core.index.erase player.ratingKey })
  | .indexRange lower upper =>
      ((core.index.toList.filter fun entry =>
        (compareKeys lower entry.1).isLE && (compareKeys entry.1 upper).isLE).map
          (·.2), core)
  -- `Weak::upgrade` succeeds while some `Arc` to the player is left
  | .upgrade player =>
      (core.primary.lookup player.id = some player || choice.keptAlive, core)
  | .pushHistory _ _ record limit => ((), core.pushHistory record limit)
  | .fetchAdd counter amount =>
      ((), { core with metrics := core.metrics.fetchAdd amount counter })
  | .addQueueSize amount =>
      ((), { core with metrics := { core.metrics with
        currentQueueSize := core.metrics.currentQueueSize + amount } })

end Core

@[reducible] def semantics : Semantics memory where
  World := Core
  Choice := Choice
  perform := Core.perform

end Matchmaker
