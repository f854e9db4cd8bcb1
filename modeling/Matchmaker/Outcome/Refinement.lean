import Matchmaker.Outcome.Drain
import Matchmaker.Sequential.Sessions

namespace Matchmaker

open Concurrent

/-! Calls that run one after the other serve a queue: a finite map from
identifiers to ratings and times of joining. -/

abbrev Ledger := Uuid → Option (Nat × Instant)

namespace Ledger

def empty : Ledger := fun _ => none

def size (ledger : Ledger) : Nat :=
  (Finset.univ.filter fun id => (ledger id).isSome).card

def add (ledger : Ledger) (id : Uuid) (entry : Nat × Instant) : Ledger :=
  Function.update ledger id (some entry)

def drop (ledger : Ledger) (ids : List Uuid) : Ledger := fun id =>
  if id ∈ ids then none else ledger id

/-- The record is about ten entries, and has their ratings. -/
structure Matches (ledger : Ledger) (record : Match) : Prop where
  length : record.ids.length = matchSize
  distinct : record.ids.Nodup
  entries : ∀ snapshot ∈ record.teamA.players ++ record.teamB.players,
    ∃ joinTimestamp,
      ledger snapshot.id = some (snapshot.skillRating, joinTimestamp)

/-- What the queue answers to a call between two times, and what it keeps. -/
inductive Serves (ledger : Ledger) (earliest latest : Instant) :
    Request → Response → Ledger → Prop
  | joined {id : Uuid} {skillRating : Nat} {joinTimestamp : Instant}
      (bounded : skillRating ≤ maxSkillRating) (absent : ledger id = none)
      (after : earliest ≤ joinTimestamp) (before : joinTimestamp ≤ latest) :
      Serves ledger earliest latest (.enqueue id skillRating)
        (.enqueue (.ok (ledger.add id (skillRating, joinTimestamp)).size))
        (ledger.add id (skillRating, joinTimestamp))
  | invalidSkillRating {id : Uuid} {skillRating : Nat}
      (high : maxSkillRating < skillRating) :
      Serves ledger earliest latest (.enqueue id skillRating)
        (.enqueue (.error (.invalidSkillRating skillRating maxSkillRating)))
        ledger
  | alreadyQueued {id : Uuid} {skillRating : Nat} {entry : Nat × Instant}
      (bounded : skillRating ≤ maxSkillRating)
      (present : ledger id = some entry) :
      Serves ledger earliest latest (.enqueue id skillRating)
        (.enqueue (.error (.alreadyQueued id))) ledger
  | cancelled {id : Uuid} {entry : Nat × Instant}
      (present : ledger id = some entry) :
      Serves ledger earliest latest (.cancel id) (.cancel (.ok ()))
        (ledger.drop [id])
  | notFound {id : Uuid} (absent : ledger id = none) :
      Serves ledger earliest latest (.cancel id)
        (.cancel (.error (.notFound id))) ledger
  | matched {workerId : Nat} {record : Match} {state : WorkerState}
      (entered : ledger.Matches record) :
      Serves ledger earliest latest (.attemptMatch workerId)
        (.attemptMatch (.success record) state) (ledger.drop record.ids)
  | unmatched {workerId : Nat} {answer : MatchAttemptResult}
      {state : WorkerState} (failed : ∀ record, answer ≠ .success record) :
      Serves ledger earliest latest (.attemptMatch workerId)
        (.attemptMatch answer state) ledger
  | reaped : Serves ledger earliest latest .reaperTick .reaperTick ledger

end Ledger

/-- The core keeps exactly these entries. -/
structure Keeps (core : Core) (ledger : Ledger) : Prop where
  primary : ∀ id, ledger id = (core.primary.lookup id).map fun player =>
    (player.skillRating, player.joinTimestamp)
  own : ∀ id player, core.primary.lookup id = some player → player.id = id
  index : ∀ key player, core.index[key]? = some player ↔
    key = player.ratingKey ∧ core.primary.lookup player.id = some player
  idle : ∀ id player, core.primary.lookup id = some player →
    (core.cells player).state = .waiting ∧
      (core.cells player).claimedBy = 0 ∧
      (core.cells player).claimTimestamp = 0
  gauge : core.metrics.currentQueueSize = core.primary.entries.length
  size : core.primary.entries.length = ledger.size

/-- The queue serves these calls one after the other, and after each of them
the core keeps its entries. -/
inductive Ledger.Follows : Ledger → Instant → SessionLog → Prop
  | nil (ledger : Ledger) (now : Instant) : Follows ledger now []
  | cons {ledger next : Ledger} {now : Instant}
      {served : Program.Served semantics Request Response} {log : SessionLog}
      (serves : ledger.Serves now (Core.clock served.world).instant
        served.request served.answer next)
      (keeps : Keeps served.world next)
      (rest : Follows next (Core.clock served.world).instant log) :
      Follows ledger now (served :: log)

variable {config : Config} {matchHistoryLimit : Nat}
  {workers workers' : Workers} {core core' : Core} {log : SessionLog}
  {request : Request} {response : Response}

/-- The entries of the primary store. -/
def Core.ledger (core : Core) : Ledger := fun id =>
  (core.primary.lookup id).map fun player =>
    (player.skillRating, player.joinTimestamp)

theorem Core.size_ledger (core : Core) :
    core.primary.entries.length = core.ledger.size := by
  have keys : Finset.univ.filter (fun id => (core.ledger id).isSome) =
      core.primary.keys.toFinset := by
    ext id
    rw [Finset.mem_filter, List.mem_toFinset, Core.ledger, Option.isSome_map]
    exact (and_iff_right (Finset.mem_univ id)).trans AList.lookup_isSome
  rw [Ledger.size, keys, List.toFinset_card_of_nodup core.primary.keys_nodup]
  exact (List.length_map ..).symm

theorem Resting.keeps (resting : Resting core) : Keeps core core.ledger where
  primary _ := rfl
  own _ _ := resting.toWellKeyed.primary
  index := by
    rintro ⟨skillRating, id⟩ player
    rw [resting.synchronised skillRating id, Option.filter_eq_some_iff]
    constructor
    · intro found
      obtain ⟨stored, rated⟩ := found
      obtain rfl := resting.toWellKeyed.primary stored
      obtain rfl := of_decide_eq_true rated
      exact ⟨rfl, stored⟩
    · intro found
      obtain ⟨same, stored⟩ := found
      cases same
      exact ⟨stored, decide_eq_true rfl⟩
  idle _ _ := resting.idle
  gauge := resting.gauge
  size := core.size_ledger

theorem Core.SamePool.ledger (same : core.SamePool core') :
    core'.ledger = core.ledger := by
  unfold Core.ledger
  rw [same.primary]

theorem Core.ledger_join {player : Player} :
    (core.join player).ledger =
      core.ledger.add player.id
        (player.skillRating, player.joinTimestamp) := by
  funext id
  have stored : (core.join player).primary.lookup id =
      if id = player.id then some player else core.primary.lookup id :=
    lookup_insert_eq
  rw [Core.ledger, stored, Ledger.add, Function.update_apply]
  split <;> rfl

theorem Core.size_join {player : Player}
    (absent : core.primary.lookup player.id = none) :
    core.primary.entries.length + 1 = (core.ledger.add player.id
      (player.skillRating, player.joinTimestamp)).size := by
  rw [← length_insert_of_absent absent, ← Core.ledger_join]
  exact Core.size_ledger (core.join player)

theorem Core.ledger_withdraw {players : List Player}
    (primary : core'.primary = (core.withdraw players).primary) :
    core'.ledger = core.ledger.drop (players.map (·.id)) := by
  funext id
  rw [Core.ledger, primary, Core.lookup_withdraw, Ledger.drop]
  split <;> rfl

theorem Ledger.drop_perm {ledger : Ledger} {ids ids' : List Uuid}
    (perm : ids.Perm ids') : ledger.drop ids = ledger.drop ids' := by
  funext id
  rw [Ledger.drop, Ledger.drop]
  simp only [perm.mem_iff]

/-- The snapshots of a record are those of its ten players. -/
theorem Moments.record_snapshots (moments : Moments) (players : List Player) :
    (moments.record players).teamA.players ++
        (moments.record players).teamB.players =
      ((exhaustiveBalance players).teamA ++
        (exhaustiveBalance players).teamB).map moments.snapshot :=
  List.map_append.symm

theorem Core.Attempts.refines {workerId : Nat} {answer : MatchAttemptResult}
    {state : WorkerState} (resting : Resting core)
    (attempts : core.Attempts Clock.Onward
      ⟨workerId, config, matchHistoryLimit⟩ (workers workerId)
      (answer, state) core') :
    core.ledger.Serves core.clock.instant core'.clock.instant
      (.attemptMatch workerId) (.attemptMatch answer state) core'.ledger := by
  have consistent := resting.toConsistent
  cases attempts with
  | poolEmpty nobody drifts =>
      rw [(Core.SamePool.of_drifts drifts).ledger]
      exact .unmatched nofun
  | insufficient selects scans few staged drifts =>
      rw [(Core.SamePool.of_drifts drifts).ledger]
      exact .unmatched nofun
  | @success seed bounds moments _ selects scans enough after drifts =>
      obtain ⟨clock, _, rfl⟩ := drifts
      have found := fun player member =>
        @Core.chosen_found core consistent bounds player member
      have ten := Core.length_chosen consistent.toWellKeyed
        consistent.synchronised enough
      obtain ⟨_, _, perm⟩ := exhaustiveBalance_split ten
        fun player member => consistent.bounded (found player member)
      have ids : (moments.record (core.chosen bounds)).ids.Perm
          ((core.chosen bounds).map (·.id)) := by
        rw [Match.ids, Moments.record_ids]
        exact perm.map _
      have left : (((core.count .workerCyclesTotal).form
          ⟨workerId, config, matchHistoryLimit⟩ (core.chosen bounds)
            moments).timed clock).ledger =
          core.ledger.drop (moments.record (core.chosen bounds)).ids := by
        rw [Ledger.drop_perm ids]
        exact Core.ledger_withdraw rfl
      rw [left]
      refine .matched ⟨?_, ?_, ?_⟩
      · rw [ids.length_eq, List.length_map, ten]
      · rw [ids.nodup_iff]
        exact Core.nodup_chosen_ids consistent
      · intro snapshot member
        rw [Moments.record_snapshots] at member
        obtain ⟨player, listed, rfl⟩ := List.mem_map.mp member
        refine ⟨player.joinTimestamp, ?_⟩
        have stored := found player (perm.mem_iff.mp listed)
        exact congrArg (Option.map _) stored

theorem Core.Serves.refines (resting : Resting core)
    (serves : core.Serves Clock.Onward config matchHistoryLimit workers request
      response workers' core') :
    core.ledger.Serves core.clock.instant core'.clock.instant request response
      core'.ledger := by
  cases serves with
  | @enqueue id skillRating _ _ enqueues =>
      cases enqueues with
      | invalid high drifts =>
          rw [(Core.SamePool.of_drifts drifts).ledger]
          exact .invalidSkillRating high
      | queued bounded found drifts =>
          rw [(Core.SamePool.of_drifts drifts).ledger]
          exact .alreadyQueued bounded (congrArg (Option.map _) found)
      | @joined moment _ bounded absent passed drifts =>
          obtain ⟨clock, passed', rfl⟩ := drifts
          have left : (((core.timed moment).join ⟨core.allocated, id,
              skillRating, moment.instant⟩).timed clock).ledger =
              core.ledger.add id (skillRating, moment.instant) :=
            @Core.ledger_join (core.timed moment) ⟨_, _, _, _⟩
          have size : core.primary.entries.length + 1 =
              (core.ledger.add id (skillRating, moment.instant)).size :=
            @Core.size_join core ⟨core.allocated, id, _, _⟩ absent
          rw [left, size]
          exact .joined bounded (congrArg (Option.map _) absent) passed passed'
  | cancel cancels =>
      cases cancels with
      | notFound absent drifts =>
          rw [(Core.SamePool.of_drifts drifts).ledger]
          exact .notFound (congrArg (Option.map _) absent)
      | currentlyBeingMatched found busy drifts =>
          exact absurd (resting.idle found).1 busy
      | @cancelled player _ found waiting drifts =>
          obtain rfl := resting.toWellKeyed.primary found
          obtain ⟨clock, _, rfl⟩ := drifts
          have left : ((core.leave player).timed clock).ledger =
              core.ledger.drop [player.id] :=
            Core.ledger_withdraw rfl
          rw [left]
          exact .cancelled (congrArg (Option.map _) found)
  | attemptMatch attempts => exact attempts.refines resting
  | reaperTick reaps =>
      obtain ⟨moment, _, drifts⟩ := reaps
      rw [(Core.SamePool.of_drifts drifts).ledger,
        (resting.reap _ _).1.ledger]
      exact .reaped

/-- Every sequence of complete calls on the empty core is served by the queue:
the calls answer what it answers, and the core keeps what it keeps. -/
theorem sessions_refine {clock : Clock} {last : Workers} {final : Core}
    (sessions : Sessions Clock.Onward config matchHistoryLimit (fun _ => .new)
      (.new clock) log last final) :
    Ledger.empty.Follows clock.instant log := by
  refine Sessions.induct (motive := fun _ core log _ _ =>
    core.ledger.Follows core.clock.instant log) ?_ ?_ (.new clock) sessions
  · intro _ core _
    exact .nil core.ledger core.clock.instant
  · intro workers core request response workers' core' log _ _ resting serves
      induction
    exact .cons (serves.refines resting) (resting.serves serves).keeps
      induction

/-- Ten players join, one of them twice, and are matched while another one
comes and goes; then the first one tries to leave and joins again. -/
def matchedRequests : List Request :=
  (List.range 10).map (fun i => .enqueue (Fin.ofNat _ (i + 1)) (1500 + i)) ++
    [.enqueue 1 1600, .enqueue 11 1400, .cancel 11, .cancel 12,
      .attemptMatch 1, .cancel 1, .enqueue 1 1600, .attemptMatch 1,
      .reaperTick]

set_option maxRecDepth 100000 in
theorem sessions_refine_requests :
    ∃ log last final,
      Sessions Clock.Onward .default 1000 (fun _ => .new) (.new ⟨0, 1000⟩)
        log last final ∧
      log.map (·.request) = matchedRequests ∧
      Ledger.empty.Follows 0 log ∧ final.history.length = 1 ∧
      final.metrics.currentQueueSize = 1 := by
  have sessions := @Program.serial_serially _ _ _ _ semantics
    (Core.Drifts Clock.Onward) (serve .default 1000) Core.Drifts.refl inOrder
    matchedRequests (fun _ => .new) (.new ⟨0, 1000⟩)
  refine ⟨_, _, _, sessions, Program.requests_serially ..,
    sessions_refine sessions, ?_⟩
  decide +kernel

end Matchmaker
