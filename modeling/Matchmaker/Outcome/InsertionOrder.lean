import Matchmaker.Outcome.Twins

namespace Matchmaker

open Concurrent Ranking

/-! In which order the players were stored makes no difference. -/

section Balance

variable (players : List Player)

theorem ratingAt_bare :
    ratingAt (players.map Player.bare) = ratingAt players := by
  funext place
  rw [ratingAt, ratingAt, List.getElem?_map, Option.map_map]
  rfl

theorem playersAt_bare (mask : Nat) (bit : Bool) :
    playersAt (players.map Player.bare) mask bit =
      (playersAt players mask bit).map Player.bare := by
  rw [playersAt, playersAt, List.map_filterMap]
  simp only [List.getElem?_map]

theorem bestSplit_bare (totalSum : Nat) :
    bestSplit (players.map Player.bare) totalSum =
      bestSplit players totalSum := by
  have consider : BestSplit.consider (players.map Player.bare) totalSum =
      BestSplit.consider players totalSum := by
    funext best mask
    have sums : maskSum (players.map Player.bare) mask =
        maskSum players mask := by
      rw [maskSum, maskSum, ratingAt_bare]
    rw [BestSplit.consider, BestSplit.consider, sums]
  rw [bestSplit, bestSplit, consider]

theorem exhaustiveBalance_bare :
    (exhaustiveBalance (players.map Player.bare)).teamA =
        (exhaustiveBalance players).teamA.map Player.bare ∧
      (exhaustiveBalance (players.map Player.bare)).teamB =
        (exhaustiveBalance players).teamB.map Player.bare := by
  simp only [exhaustiveBalance, ratingAt_bare, bestSplit_bare,
    playersAt_bare, and_self]

end Balance

/-- All steps are taken at one moment. -/
def Moments.still (now : Instant) : Moments where
  claimedMs := 0
  matchedAt := fun _ => now
  formedMs := 0
  matchId := 0

theorem Moments.record_bare (now : Instant) (players : List Player) :
    (still now).record (players.map Player.bare) =
      (still now).record players := by
  obtain ⟨teamA, teamB⟩ := exhaustiveBalance_bare players
  have waits : (still now).waitMs ∘ Player.bare = (still now).waitMs := rfl
  have ratings : Player.skillRating ∘ Player.bare = Player.skillRating := rfl
  have snapshots : (still now).snapshot ∘ Player.bare =
      (still now).snapshot := rfl
  simp only [record, teamA, teamB, List.map_map, waits, snapshots, skillSpread]
  rw [ratings]

/-- But for the fresh identifier and the time stamp, the record tells nothing
about the moments but when the players were marked. -/
theorem Moments.record_still {moments : Moments} {players : List Player}
    {now : Instant}
    (still : ∀ player ∈ players, moments.matchedAt player = now) :
    moments.record players = { (Moments.still now).record players with
      matchId := moments.matchId
      formedAtUnix := moments.formedMs / 1000 } := by
  have waits : ∀ player ∈ players,
      moments.waitMs player = (Moments.still now).waitMs player := by
    intro player member
    rw [waitMs, waitMs, still player member]
    rfl
  have snapshots : ∀ team, team ⊆ players →
      team.map moments.snapshot = team.map (Moments.still now).snapshot := by
    intro team inside
    apply List.map_congr_left
    intro player member
    rw [snapshot, snapshot, waits player (inside member)]
  have first : (exhaustiveBalance players).teamA ⊆ players :=
    fun _ member => mem_of_playersAt member
  have second : (exhaustiveBalance players).teamB ⊆ players :=
    fun _ member => mem_of_playersAt member
  rw [record, record, List.map_congr_left waits, snapshots _ first,
    snapshots _ second]
  rfl

section Chosen

variable {core core' : Core} (twin : core.Twin core')
  (keyed : WellKeyed core) (synchronised : Synchronised core)
  (keyed' : WellKeyed core') (synchronised' : Synchronised core')
include twin keyed synchronised keyed' synchronised'

theorem Core.Twin.chosen (bounds : Nat × Nat) :
    (core.chosen bounds).map Player.bare =
      (core'.chosen bounds).map Player.bare := by
  have seedKey : ∀ player : Player, player.bare.seedKey = player.seedKey :=
    fun _ => rfl
  have indexKey : ∀ player : Player, player.bare.indexKey = player.indexKey :=
    fun _ => rfl
  have distinct : ((core.window bounds).map Player.bare).Nodup := by
    apply (keyed.nodup_players.sublist List.filter_sublist).map_on
    intro player member other member' same
    exact Core.eq_of_id keyed (Core.mem_window.mp member).1
      (Core.mem_window.mp member').1 (id_of_bare same)
  have injective : Set.InjOn Player.indexKey
      {player | player ∈ (core.window bounds).map Player.bare} := by
    intro player member other member' same
    obtain ⟨source, listed, rfl⟩ := List.mem_map.mp member
    obtain ⟨source', listed', rfl⟩ := List.mem_map.mp member'
    have ids : source.id = source'.id :=
      congrArg (fun key : Nat ×ₗ Uuid => (ofLex key).2) same
    rw [Core.eq_of_id keyed (Core.mem_window.mp listed).1
      (Core.mem_window.mp listed').1 ids]
  rw [Core.chosen_eq keyed synchronised, Core.chosen_eq keyed' synchronised',
    firstBy_map seedKey, firstBy_map seedKey, firstBy_map indexKey,
    firstBy_map indexKey, firstBy_congr (twin.window keyed keyed' bounds)
      distinct injective]

end Chosen

/-- The answers are the same, but for the fresh identifier and the time stamp
of a match. -/
inductive MatchAttemptResult.Agrees :
    MatchAttemptResult → MatchAttemptResult → Prop
  | same (answer : MatchAttemptResult) : Agrees answer answer
  | success {record record' : Match}
      (same : record' = { record with
        matchId := record'.matchId
        formedAtUnix := record'.formedAtUnix }) :
      Agrees (.success record) (.success record')

section Form

variable {ctx : WorkerContext} {core core' : Core}
  {players players' : List Player} {moments moments' : Moments}

theorem Core.describe_form (keyed : WellKeyed core) :
    (∀ id, ((core.form ctx players moments).primary.lookup id).map
        (core.form ctx players moments).describe =
      if id ∈ players.map (·.id) then none
      else (core.primary.lookup id).map core.describe) ∧
    (∀ key : Nat × Uuid, (core.form ctx players moments).index[key]?.map
        (core.form ctx players moments).describe =
      if key ∈ players.map (·.ratingKey) then none
      else core.index[key]?.map core.describe) := by
  have kept : ∀ {player}, player ∉ players →
      (core.form ctx players moments).describe player =
        core.describe player := by
    intro player outside
    rw [describe, describe, cells_form_not_mem outside]
  constructor
  · intro id
    rw [lookup_form]
    split
    · rfl
    · rename_i outside
      refine Option.map_congr fun player found => kept ?_
      obtain rfl := keyed.primary found
      exact fun member => outside (List.mem_map_of_mem member)
  · intro key
    rw [index_form]
    split
    · rfl
    · rename_i outside
      refine Option.map_congr fun player found => kept ?_
      obtain rfl := keyed.index found
      exact fun member => outside (List.mem_map_of_mem member)

theorem Core.Twin.form (twin : core.Twin core') (keyed : WellKeyed core)
    (keyed' : WellKeyed core')
    (same : players.map Player.bare = players'.map Player.bare) :
    (core.form ctx players moments).Twin (core'.form ctx players' moments')
      where
  primary := by
    intro id
    have ids : players.map (·.id) = players'.map (·.id) := by
      have mapped := congrArg (List.map Player.id) same
      rw [List.map_map, List.map_map] at mapped
      exact mapped
    rw [(describe_form keyed).1, (describe_form keyed').1, ids,
      twin.primary]
  index := by
    intro key
    have keys : players.map (·.ratingKey) = players'.map (·.ratingKey) := by
      have mapped := congrArg (List.map Player.ratingKey) same
      rw [List.map_map, List.map_map] at mapped
      exact mapped
    rw [(describe_form keyed).2, (describe_form keyed').2, keys, twin.index]
  clock := twin.clock

end Form

section Attempt

variable {ctx : WorkerContext} {state kept kept' : WorkerState}
  {core core' final final' : Core} {answer answer' : MatchAttemptResult}

theorem Core.Twin.tries (twin : core.Twin core')
    (keyed : WellKeyed core) (synchronised : Synchronised core)
    (keyed' : WellKeyed core') (synchronised' : Synchronised core')
    (tries : core.Tries Eq ctx state (answer, kept) final)
    (tries' : core'.Tries Eq ctx state (answer', kept') final') :
    answer.Agrees answer' ∧ kept = kept' ∧ final.Twin final' := by
  have somebody {seed : Player} {core core' : Core} (twin : core.Twin core')
      (selects : core.Selects Eq ctx state (some seed)) :
      core'.waiting ≠ [] := by
    intro nobody
    have member := twin.bare_waiting selects.waiting
    rw [nobody] at member
    cases member
  have meet {seed seed' : Player} {bounds bounds' : Nat × Nat}
      (selects : core.Selects Eq ctx state (some seed))
      (selects' : core'.Selects Eq ctx state (some seed'))
      (scans : core.Scans Eq ctx seed bounds)
      (scans' : core'.Scans Eq ctx seed' bounds') :
      seed.bare = seed'.bare ∧ bounds = bounds' := by
    have bare := Option.some.inj (twin.selects keyed keyed' selects selects')
    obtain rfl := sometime_eq.mp scans
    obtain rfl := sometime_eq.mp scans'
    exact ⟨bare, twin.scanned bare⟩
  have lengths : ∀ bounds,
      (core.window bounds).length = (core'.window bounds).length := by
    intro bounds
    have same := (twin.window keyed keyed' bounds).length_eq
    rwa [List.length_map, List.length_map] at same
  cases tries with
  | poolEmpty nobody drifts =>
      cases tries' with
      | poolEmpty nobody' drifts' =>
          obtain rfl := drifts_eq.mp drifts
          obtain rfl := drifts_eq.mp drifts'
          exact ⟨.same _, rfl, twin⟩
      | insufficient selects' =>
          exact absurd nobody (somebody twin.symm selects')
      | success selects' => exact absurd nobody (somebody twin.symm selects')
  | insufficient selects scans few staged drifts =>
      cases tries' with
      | poolEmpty nobody' => exact absurd nobody' (somebody twin selects)
      | insufficient selects' scans' few' staged' drifts' =>
          obtain ⟨bare, rfl⟩ := meet selects selects' scans scans'
          obtain rfl := sometime_eq.mp staged
          obtain rfl := sometime_eq.mp staged'
          obtain rfl := drifts_eq.mp drifts
          obtain rfl := drifts_eq.mp drifts'
          rw [lengths, skillRating_of_bare bare, joinTimestamp_of_bare bare,
            id_of_bare bare, twin.clock]
          exact ⟨.same _, rfl, twin.primary, twin.index, twin.clock⟩
      | success selects' scans' enough' =>
          obtain ⟨_, rfl⟩ := meet selects selects' scans scans'
          rw [lengths] at few
          exact absurd enough' (Nat.not_le_of_lt few)
  | @success _ bounds _ _ selects scans enough after drifts =>
      cases tries' with
      | poolEmpty nobody' => exact absurd nobody' (somebody twin selects)
      | insufficient selects' scans' few' =>
          obtain ⟨_, rfl⟩ := meet selects selects' scans scans'
          rw [lengths] at enough
          exact absurd enough (Nat.not_le_of_lt few')
      | success selects' scans' enough' after' drifts' =>
          obtain ⟨_, rfl⟩ := meet selects selects' scans scans'
          obtain rfl := drifts_eq.mp drifts
          obtain rfl := drifts_eq.mp drifts'
          have chosen := twin.chosen keyed synchronised keyed' synchronised'
            (clamped bounds)
          refine ⟨.success ?_, rfl, ?_⟩
          · rw [Moments.record_still fun player member =>
                sometime_eq.mp (after'.matched player member),
              Moments.record_still fun player member =>
                sometime_eq.mp (after.matched player member),
              ← Moments.record_bare, ← Moments.record_bare _ (core.chosen _),
              chosen, twin.clock]
          · have counted : (core.count .workerCyclesTotal).Twin
                (core'.count .workerCyclesTotal) :=
              ⟨twin.primary, twin.index, twin.clock⟩
            exact counted.form ⟨keyed.primary, keyed.index⟩
              ⟨keyed'.primary, keyed'.index⟩ chosen

end Attempt

/-- An empty pool, with the fields that its players will have. -/
def Core.vacant (clock : Clock) (cells : Player → PlayerCells) : Core :=
  { Core.new clock with cells }

section Insertions

variable {clock : Clock} {cells cells' : Player → PlayerCells}
  {players players' : List Player} {core core' : Core}

theorem alone_insertions (start : Core) (players : List Player) :
    Alone Eq start (forM players PlayerPool.insert) fun _ core =>
      core = players.foldl (fun core player => core.enter player) start := by
  apply @Program.Ensures.forM _ semantics (Core.Drifts Eq) start _ players
    PlayerPool.insert fun finished _ core =>
      core = finished.foldl (fun core player => core.enter player) start
  · rfl
  · rintro finished player rest _ rfl
    apply alone_access_bind.mpr
    rintro _ rfl _
    apply alone_access.mpr
    rintro _ rfl _
    rw [List.foldl_append]
    rfl

theorem foldl_enter_vacant :
    players.foldl (fun core player => core.enter player)
        (Core.vacant clock cells) =
      { Core.stocked clock players.reverse with cells } := by
  rw [Core.stocked, List.foldr_reverse]
  induction players using List.reverseRecOn with
  | nil => rfl
  | append_singleton players player induction =>
      rw [List.foldl_append, List.foldl_append, induction]
      rfl

theorem lookup_stocked (distinct : (players.map (·.id)).Nodup) {id : Uuid}
    {player : Player} :
    (Core.stocked clock players).primary.lookup id = some player ↔
      player ∈ players ∧ player.id = id := by
  constructor
  · exact mem_of_stocked
  · intro given
    obtain ⟨member, rfl⟩ := given
    rw [← players_stocked clock distinct] at member
    obtain ⟨id, found⟩ := Primary.mem_players.mp member
    rw [(WellKeyed.stocked clock players).primary found]
    exact found

/-- What insertions into an empty pool have made. -/
structure Inserted (clock : Clock) (cells : Player → PlayerCells)
    (players : List Player) (core : Core) : Prop where
  keyed : WellKeyed core
  synchronised : Synchronised core
  stored : ∀ {id player}, core.primary.lookup id = some player ↔
    player ∈ players ∧ player.id = id
  cells : core.cells = cells
  clock : core.clock = clock

theorem inserted_of_completes (distinct : (players.map (·.id)).Nodup)
    (completes : (forM players PlayerPool.insert).Completes semantics
      (Core.Drifts Eq) (Core.vacant clock cells) () core) :
    Inserted clock cells players core := by
  have made := (alone_insertions (.vacant clock cells) players).completes
    completes
  have distinct' : (players.reverse.map (·.id)).Nodup := by
    rw [List.map_reverse]
    exact List.nodup_reverse.mpr distinct
  have keyed := WellKeyed.stocked clock players.reverse
  rw [foldl_enter_vacant] at made
  subst made
  refine ⟨⟨keyed.primary, keyed.index⟩, ?_, ?_, rfl, ?_⟩
  · intro skillRating id
    exact Synchronised.stocked clock distinct' skillRating id
  · intro id player
    rw [← List.mem_reverse]
    exact lookup_stocked distinct'
  · induction players.reverse with
    | nil => rfl
    | cons _ _ induction => exact induction

theorem Inserted.described (inserted : Inserted clock cells players core)
    {id : Uuid} {description : Player × PlayerState} :
    (core.primary.lookup id).map core.describe = some description ↔
      description ∈ players.map (Core.vacant clock cells).describe ∧
        description.1.id = id := by
  have describe : (Core.vacant clock cells).describe = core.describe := by
    funext player
    rw [Core.describe, Core.describe, inserted.cells]
    rfl
  rw [Option.map_eq_some_iff, List.mem_map, describe]
  constructor
  · intro given
    obtain ⟨player, found, rfl⟩ := given
    obtain ⟨member, rfl⟩ := inserted.stored.mp found
    exact ⟨⟨player, member, rfl⟩, rfl⟩
  · intro given
    obtain ⟨⟨player, member, rfl⟩, rfl⟩ := given
    exact ⟨player, inserted.stored.mpr ⟨member, rfl⟩, rfl⟩

theorem Core.Twin.of_primary (synchronised : Synchronised core)
    (synchronised' : Synchronised core') (clock : core.clock = core'.clock)
    (primary : ∀ id, (core.primary.lookup id).map core.describe =
      (core'.primary.lookup id).map core'.describe) : core.Twin core' where
  primary := primary
  index := by
    intro found
    obtain ⟨skillRating, id⟩ := found
    have filtered {core : Core} (stored : Option Player) :
        (stored.filter (·.skillRating = skillRating)).map core.describe =
          (stored.map core.describe).filter
            (·.1.skillRating = skillRating) := by
      cases stored with
      | none => rfl
      | some player =>
          by_cases same : player.skillRating = skillRating
          · simp [Option.filter, same, describe, Player.bare]
          · simp [Option.filter, same, describe, Player.bare]
    rw [synchronised, synchronised', filtered, filtered, primary]
  clock := clock

theorem Inserted.twin (inserted : Inserted clock cells players core)
    (inserted' : Inserted clock cells' players' core')
    (same : (players.map (Core.vacant clock cells).describe).Perm
      (players'.map (Core.vacant clock cells').describe)) :
    core.Twin core' := by
  refine .of_primary inserted.synchronised inserted'.synchronised
    (inserted.clock.trans inserted'.clock.symm) fun id => ?_
  apply Option.ext
  intro description
  rw [inserted.described, inserted'.described, same.mem_iff]

end Insertions

/-- Two pools of the same players, filled in two orders and walked in any, are
matched alike. -/
theorem attemptMatch_order {ctx : WorkerContext}
    {state : WorkerState} {clock : Clock}
    {cells cells' : Player → PlayerCells} {players players' : List Player}
    {core core' final final' : Core}
    {outcome outcome' : MatchAttemptResult × WorkerState}
    (distinct : (players.map (·.id)).Nodup)
    (same : (players.map (Core.vacant clock cells).describe).Perm
      (players'.map (Core.vacant clock cells').describe))
    (built : (forM players PlayerPool.insert).Completes semantics
      (Core.Drifts Eq) (Core.vacant clock cells) () core)
    (built' : (forM players' PlayerPool.insert).Completes semantics
      (Core.Drifts Eq) (Core.vacant clock cells') () core')
    (completes : (attemptMatch ctx state).Completes semantics
      (Core.Drifts Eq) core outcome final)
    (completes' : (attemptMatch ctx state).Completes semantics
      (Core.Drifts Eq) core' outcome' final') :
    outcome.1.Agrees outcome'.1 ∧ outcome.2 = outcome'.2 ∧
      final.Twin final' := by
  have ids : ∀ (players : List Player) cells,
      (players.map (Core.vacant clock cells).describe).map (·.1.id) =
        players.map (·.id) := by
    intro players cells
    rw [List.map_map]
    rfl
  have distinct' : (players'.map (·.id)).Nodup := by
    rw [← ids players' cells', ← (same.map _).nodup_iff, ids]
    exact distinct
  have inserted := inserted_of_completes distinct built
  have inserted' := inserted_of_completes distinct' built'
  have tries := (alone_attemptMatch_tries inserted.keyed
    inserted.synchronised).completes completes
  have tries' := (alone_attemptMatch_tries inserted'.keyed
    inserted'.synchronised).completes completes'
  exact (inserted.twin inserted' same).tries inserted.keyed
    inserted.synchronised inserted'.keyed inserted'.synchronised tries tries'

/-- The primary store is walked from its other end. -/
def backwards : Choice where
  keptAlive := true
  uuid := 1
  arrange := List.reverse

/-- The same ten players, last first, at other addresses. -/
def queueBack : List Player :=
  (queueOf 10 1500).reverse.map fun player =>
    { player with address := player.address + 100 }

def filled (players : List Player) : Core :=
  ((forM players PlayerPool.insert).exec semantics inOrder
    (Core.vacant ⟨0, 1000⟩ fun _ => .new)).2

set_option maxRecDepth 100000 in
theorem attemptMatch_order_ten :
    ((attemptMatch soleWorker .new).exec semantics inOrder
        (filled (queueOf 10 1500))).1.1.isSuccess = true ∧
      ((attemptMatch soleWorker .new).exec semantics inOrder
        (filled (queueOf 10 1500))).1.1.Agrees
        ((attemptMatch soleWorker .new).exec semantics backwards
          (filled queueBack)).1.1 ∧
      ((attemptMatch soleWorker .new).exec semantics inOrder
        (filled (queueOf 10 1500))).2.Twin
        ((attemptMatch soleWorker .new).exec semantics backwards
          (filled queueBack)).2 := by
  have runs {α : Type} (choice : Choice) (task : Task α) (core : Core) :=
    @Program.completes_exec memory semantics (Core.Drifts Eq) α
      (fun _ => drifts_eq.mpr rfl) choice task core
  have distinct : ((queueOf 10 1500).map (·.id)).Nodup := by decide +kernel
  have same : ((queueOf 10 1500).map
      (Core.vacant ⟨0, 1000⟩ fun _ => .new).describe).Perm
        (queueBack.map (Core.vacant ⟨0, 1000⟩ fun _ => .new).describe) := by
    decide +kernel
  have agree := attemptMatch_order distinct same
    (runs inOrder (forM (queueOf 10 1500) PlayerPool.insert)
      (Core.vacant ⟨0, 1000⟩ fun _ => .new))
    (runs inOrder (forM queueBack PlayerPool.insert)
      (Core.vacant ⟨0, 1000⟩ fun _ => .new))
    (runs inOrder (attemptMatch soleWorker .new) (filled (queueOf 10 1500)))
    (runs backwards (attemptMatch soleWorker .new) (filled queueBack))
  exact ⟨by decide +kernel, agree.1, agree.2.2⟩

end Matchmaker
