import Matchmaker.Engine.Split
import Matchmaker.Sequential.Methods

namespace Matchmaker

open Concurrent

/-! How a match is formed when the attempt runs alone. -/

/-- When the steps of a match were taken, and the fresh identifier. -/
structure Moments where
  claimedMs : Nat
  matchedAt : Player → Instant
  formedMs : Nat
  matchId : Uuid

namespace Moments

def waitMs (moments : Moments) (player : Player) : Nat :=
  (moments.matchedAt player).msSince player.joinTimestamp

def snapshot (moments : Moments) (player : Player) : PlayerSnapshot where
  id := player.id
  skillRating := player.skillRating
  waitMs := moments.waitMs player

end Moments

def skillSpread (players : List Player) : Nat :=
  (players.map (·.skillRating)).max?.getD 0 -
    (players.map (·.skillRating)).min?.getD 0

/-- The record of a match of these players. -/
def Moments.record (moments : Moments) (players : List Player) : Match :=
  let waitTimesMs := players.map moments.waitMs
  let balance := exhaustiveBalance players
  Match.new moments.matchId (.new (balance.teamA.map moments.snapshot))
    (.new (balance.teamB.map moments.snapshot)) (skillSpread players)
    (waitTimesMs.sum % 2 ^ 64 / waitTimesMs.length)
    (waitTimesMs.max?.getD 0) (moments.formedMs / 1000)

def Metrics.addQueueSize (metrics : Metrics) (amount : Int) : Metrics :=
  { metrics with currentQueueSize := metrics.currentQueueSize + amount }

/-- The counters after a match with this record. -/
def Metrics.matched (metrics : Metrics) (record : Match)
    (waitTimesMs : List Nat) : Metrics :=
  ((((((((metrics.fetchAdd 1 .totalMatchesCreated).fetchAdd matchSize
    .totalPlayersMatched).addQueueSize (-matchSize)).fetchAdd
    (waitTimesMs.sum % 2 ^ 64) .totalWaitTimeMs).fetchAdd record.skillSpread
    .skillSpreadSum).fetchAdd 1 .skillSpreadCount).fetchAdd record.teamDelta
    .teamDeltaSum).fetchAdd 1 .teamDeltaCount)

/-- The core after a match of these players, which were marked before. -/
def Core.publish (core : Core) (ctx : WorkerContext) (players : List Player)
    (moments : Moments) : Core :=
  { (core.withdraw players).pushHistory (moments.record players)
      ctx.matchHistoryLimit with
    metrics := core.metrics.matched (moments.record players)
      (players.map moments.waitMs) }

/-- The core after a match of these players, which were waiting before. -/
def Core.form (core : Core) (ctx : WorkerContext) (players : List Player)
    (moments : Moments) : Core :=
  (core.rewrite players fun player cells =>
    (cells.claim ctx.workerId moments.claimedMs).settle
      (moments.matchedAt player)).publish ctx players moments

theorem Core.form_timed (core : Core) (clock : Clock) (ctx : WorkerContext)
    (players : List Player) (moments : Moments) :
    (core.timed clock).form ctx players moments =
      (core.form ctx players moments).timed clock := rfl

section Form

variable {core : Core} {ctx : WorkerContext} {players : List Player}
  {moments : Moments} {player : Player}

theorem Core.cells_form_mem (member : player ∈ players) :
    (core.form ctx players moments).cells player =
      ((core.cells player).claim ctx.workerId moments.claimedMs).settle
        (moments.matchedAt player) :=
  if_pos member

theorem Core.cells_form_not_mem (outside : player ∉ players) :
    (core.form ctx players moments).cells player = core.cells player :=
  if_neg outside

theorem Core.lookup_form {id : Uuid} :
    (core.form ctx players moments).primary.lookup id =
      if id ∈ players.map (·.id) then none else core.primary.lookup id :=
  Core.lookup_withdraw

theorem Core.index_form {key : Nat × Uuid} :
    (core.form ctx players moments).index[key]? =
      if key ∈ players.map (·.ratingKey) then none else core.index[key]? :=
  Core.index_withdraw

end Form

theorem Moments.record_ids (moments : Moments) (players : List Player) :
    ((moments.record players).teamA.players ++
      (moments.record players).teamB.players).map (·.id) =
      ((exhaustiveBalance players).teamA ++
        (exhaustiveBalance players).teamB).map (·.id) := by
  simp [Moments.record, Match.new, Team.new, Function.comp_def,
    Moments.snapshot]

variable {passes : Clock → Clock → Prop} [IsPreorder Clock passes]
  {ctx : WorkerContext} {state : WorkerState} {core : Core}

theorem finds_settledWaitMs {player : Player} {matched : Instant}
    (stored : (core.cells player).matchedAt = some matched) :
    Finds passes core player.settledWaitMs
      (· = matched.msSince player.joinTimestamp) := by
  apply finds_access_bind (fun _ _ => rfl)
  intro clock _ _
  simp only [Core.perform, Core.timed_cells]
  rw [stored]
  exact finds_pure rfl

theorem finds_capture {player : Player} {matched : Instant}
    (stored : (core.cells player).matchedAt = some matched) :
    Finds passes core (PlayerSnapshot.capture player)
      (· = ⟨player.id, player.skillRating,
        matched.msSince player.joinTimestamp⟩) := by
  apply (finds_settledWaitMs stored).bind'
  rintro _ _ rfl _
  exact finds_pure rfl

theorem finds_mapM {body : ι → Task α} {f : ι → α} {items : List ι}
    (each : ∀ item ∈ items, ∀ clock, passes core.clock clock →
      Finds passes (core.timed clock) (body item) (· = f item)) :
    Finds passes core (items.mapM body) (· = items.map f) := by
  induction items generalizing core with
  | nil => exact finds_pure rfl
  | cons item rest induction =>
      rw [List.mapM_cons]
      apply Finds.bind' (each item (List.mem_cons_self ..) core.clock
        (refl_of passes _))
      rintro _ clock rfl passed
      refine Finds.bind' (@induction (core.timed clock) ?_) ?_
      · intro other member clock' passed'
        exact each other (List.mem_cons_of_mem _ member) clock'
          (trans_of passes passed passed')
      · rintro _ _ rfl _
        exact finds_pure rfl

theorem finds_buildMatch {claimed : List Player}
    (matchedAt : Player → Instant) (claimedMs : Nat)
    (stored : ∀ player ∈ claimed,
      (core.cells player).matchedAt = some (matchedAt player)) :
    Finds passes core (buildMatch claimed (exhaustiveBalance claimed))
      fun built => ∃ moments : Moments, moments.matchedAt = matchedAt ∧
        moments.claimedMs = claimedMs ∧
        built = (moments.record claimed, claimed.map moments.waitMs,
          skillSpread claimed) := by
  apply Finds.bind' (finds_mapM fun player member _ _ =>
    finds_settledWaitMs (stored player member))
  rintro _ clock rfl passed
  refine Finds.bind' (finds_mapM fun player member _ _ =>
    finds_capture (stored player (mem_of_playersAt member))) ?_
  rintro _ clock' rfl _
  refine Finds.bind' (finds_mapM fun player member _ _ =>
    finds_capture (stored player (mem_of_playersAt member))) ?_
  rintro _ _ rfl _
  apply finds_access_bind (fun _ _ => rfl)
  intro _ _ choice
  apply finds_access_bind (fun _ _ => rfl)
  intro moment _ _
  exact finds_pure ⟨⟨claimedMs, matchedAt, moment.unixMs, choice.uuid⟩, rfl,
    rfl, rfl⟩

/-- The task changes nothing but the counters. -/
def Counts (passes : Clock → Clock → Prop) (task : Task Unit)
    (count : Metrics → Metrics) : Prop :=
  ∀ core : Core, Turns passes core task ()
    { core with metrics := count core.metrics }

omit [IsPreorder Clock passes] in
theorem counts_fetchAdd (counter : Counter) (amount : Nat) :
    Counts passes (fetchAdd counter amount) (·.fetchAdd amount counter) :=
  fun _ => alone_access.mpr fun clock passed _ => ⟨rfl, clock, passed, rfl⟩

omit [IsPreorder Clock passes] in
theorem counts_addQueueSize (amount : Int) :
    Counts passes (access (.addQueueSize amount)) (·.addQueueSize amount) :=
  fun _ => alone_access.mpr fun clock passed _ => ⟨rfl, clock, passed, rfl⟩

theorem Counts.andThen {first second : Task Unit}
    {count count' : Metrics → Metrics} (counts : Counts passes first count)
    (counts' : Counts passes second count') :
    Counts passes (first >>= fun _ => second)
      fun metrics => count' (count metrics) := by
  intro core
  apply (counts core).bind
  intro clock passed
  apply (counts' _).mono
  intro _ _ found
  obtain ⟨rfl, clock', passed', rfl⟩ := found
  exact ⟨rfl, clock', trans_of passes passed passed', rfl⟩

theorem counts_updateMetricsOnSuccess (record : Match)
    (waitTimesMs : List Nat) :
    Counts passes
      (updateMetricsOnSuccess record waitTimesMs record.skillSpread)
      (·.matched record waitTimesMs) :=
  (counts_fetchAdd _ _).andThen <| (counts_fetchAdd _ _).andThen <|
    (counts_addQueueSize _).andThen <| (counts_fetchAdd _ _).andThen <|
    (counts_fetchAdd _ _).andThen <| (counts_fetchAdd _ _).andThen <|
    (counts_fetchAdd _ _).andThen <| counts_fetchAdd _ _

theorem alone_completeMatch {claimed : List Player} (claimedMs : Nat)
    (distinct : claimed.Nodup)
    (held : ∀ player ∈ claimed, (core.cells player).state = .claimed)
    (found : ∀ player ∈ claimed,
      core.primary.lookup player.id = some player) :
    Alone passes core (completeMatch ctx state claimed) fun answer core' =>
      ∃ moments : Moments, moments.claimedMs = claimedMs ∧
        (∀ player ∈ claimed, Sometime passes core.clock fun moment =>
          moments.matchedAt player = moment.instant) ∧
        answer = (.success (moments.record claimed), state.reset) ∧
        ((core.rewrite claimed fun player =>
          .settle (moments.matchedAt player)).publish ctx claimed
            moments).Drifts passes core' := by
  apply (alone_markAll distinct held).bind
  intro _ _ given
  obtain ⟨matchedAt, timely, clock, passed, rfl⟩ := given
  refine (finds_buildMatch matchedAt claimedMs ?_).bind ?_
  · intro player member
    rw [Core.timed_cells, Core.cells_rewrite_mem member]
    rfl
  rintro _ clock' ⟨moments, rfl, rfl, rfl⟩ passed'
  dsimp only
  refine Turns.bind (turns_removeAll distinct found) fun clock'' passed'' => ?_
  apply alone_access_bind.mpr
  rintro moment passed₃ _
  apply Turns.bind (counts_updateMetricsOnSuccess _ _ _)
  rintro last passed₄
  refine ⟨moments, rfl, timely, rfl, last, ?_, rfl⟩
  exact trans_of passes (trans_of passes passed passed')
    (trans_of passes passed'' (trans_of passes passed₃ passed₄))

theorem alone_claimMatch {seed : Player} {candidates : List Player}
    (distinct : candidates.Nodup)
    (waiting : ∀ player ∈ candidates, (core.cells player).state = .waiting)
    (found : ∀ player ∈ candidates,
      core.primary.lookup player.id = some player)
    (enough : matchSize ≤ candidates.length) :
    Alone passes core (claimMatch ctx state seed candidates)
      fun answer core' => ∃ moments : Moments,
        Sometime passes core.clock (moments.claimedMs = ·.unixMs) ∧
        (∀ player ∈ candidates.take matchSize, Sometime passes core.clock
          fun moment => moments.matchedAt player = moment.instant) ∧
        answer = (.success (moments.record (candidates.take matchSize)),
          state.reset) ∧
        (core.form ctx (candidates.take matchSize) moments).Drifts passes
          core' := by
  have ten : (candidates.take matchSize).length = matchSize :=
    List.length_take_of_le enough
  have sublist : (candidates.take matchSize).Sublist candidates :=
    List.take_sublist ..
  apply alone_access_bind.mpr
  intro moment passed _
  have claims := @turns_claimCandidates passes _ (core.timed moment)
    ctx.workerId moment.unixMs candidates [] distinct waiting (Nat.zero_le _)
  rw [List.nil_append, List.length_nil, Nat.sub_zero] at claims
  apply claims.bind
  intro clock passed'
  rw [if_neg (by omega)]
  generalize candidates.take matchSize = claimed at *
  refine Program.Ensures.mono (alone_completeMatch moment.unixMs
    (distinct.sublist sublist) ?_ fun player member =>
      found player (sublist.subset member)) ?_
  · intro player member
    rw [Core.timed_cells, Core.cells_rewrite_mem member]
    rfl
  · intro _ _ given
    obtain ⟨moments, claimedMs, timely, rfl, last, passed'', rfl⟩ := given
    refine ⟨moments, ⟨moment, passed, claimedMs⟩, ?_, rfl, last,
      trans_of passes passed (trans_of passes passed' passed''), ?_⟩
    · intro player member
      exact (timely player member).later (trans_of passes passed passed')
    · have twice : (core.rewrite claimed fun _ =>
          .claim ctx.workerId moment.unixMs).rewrite claimed
            (fun player => .settle (moments.matchedAt player)) =
          core.rewrite claimed fun player cells =>
            (cells.claim ctx.workerId moment.unixMs).settle
              (moments.matchedAt player) := Core.rewrite_rewrite
      rw [Core.form, claimedMs, ← twice]
      rfl

end Matchmaker
