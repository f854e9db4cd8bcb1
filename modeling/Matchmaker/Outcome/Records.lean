import Matchmaker.Outcome.Balance
import Matchmaker.Outcome.Drain
import Matchmaker.Sequential.Sessions

namespace Matchmaker

open Concurrent

/-! What the records of the matches say, and what is kept of them. -/

def ratingTotal (team : List PlayerSnapshot) : Nat :=
  (team.map (·.skillRating)).sum

namespace Match

def snapshots (record : Match) : List PlayerSnapshot :=
  record.teamA.players ++ record.teamB.players

def waitTotal (record : Match) : Nat :=
  (record.snapshots.map (·.waitMs)).sum

/-- The teams are those of the balancer, and its difference is recorded. -/
structure Balances (record : Match) (claimed : List Player) : Prop where
  length : claimed.length = matchSize
  teamA : record.teamA.players.map (fun snapshot =>
      (snapshot.id, snapshot.skillRating)) =
    (exhaustiveBalance claimed).teamA.map fun player =>
      (player.id, player.skillRating)
  teamB : record.teamB.players.map (fun snapshot =>
      (snapshot.id, snapshot.skillRating)) =
    (exhaustiveBalance claimed).teamB.map fun player =>
      (player.id, player.skillRating)
  delta : record.teamDelta = (exhaustiveBalance claimed).teamDelta

/-- The numbers of the record are those of its ten snapshots. -/
structure Truthful (record : Match) : Prop where
  totalA : record.teamA.totalRating = ratingTotal record.teamA.players
  totalB : record.teamB.totalRating = ratingTotal record.teamB.players
  delta : record.teamDelta =
    absDiff record.teamA.totalRating record.teamB.totalRating
  balance : ∃ claimed, record.Balances claimed
  least : ∀ left right, (left ++ right).Perm record.snapshots →
    left.length = teamSize → right.length = teamSize →
      record.teamDelta ≤ absDiff (ratingTotal left) (ratingTotal right)
  spread : ∃ highest ∈ record.snapshots, ∃ lowest ∈ record.snapshots,
    (∀ snapshot ∈ record.snapshots,
      lowest.skillRating ≤ snapshot.skillRating ∧
        snapshot.skillRating ≤ highest.skillRating) ∧
    record.skillSpread = highest.skillRating - lowest.skillRating
  longest : (∃ snapshot ∈ record.snapshots,
      snapshot.waitMs = record.maxWaitMs) ∧
    ∀ snapshot ∈ record.snapshots, snapshot.waitMs ≤ record.maxWaitMs
  mean : record.avgWaitMs = record.waitTotal / matchSize

end Match

theorem absDiff_eq (left right : Nat) :
    absDiff left right = ((left : Int) - right).natAbs := by
  unfold absDiff
  split <;> omega

theorem exists_max {items : List α} (inhabited : items ≠ []) (f : α → Nat) :
    ∃ item ∈ items, (items.map f).max?.getD 0 = f item ∧
      ∀ other ∈ items, f other ≤ f item := by
  cases found : (items.map f).max? with
  | none =>
      have none := List.max?_eq_none_iff.mp found
      exact absurd (List.map_eq_nil_iff.mp none) inhabited
  | some highest =>
      obtain ⟨item, member, rfl⟩ := List.mem_map.mp (List.max?_mem found)
      refine ⟨item, member, rfl, fun other listed => ?_⟩
      exact (List.max?_le_iff found).mp (le_refl _) _
        (List.mem_map_of_mem listed)

theorem exists_min {items : List α} (inhabited : items ≠ []) (f : α → Nat) :
    ∃ item ∈ items, (items.map f).min?.getD 0 = f item ∧
      ∀ other ∈ items, f item ≤ f other := by
  cases found : (items.map f).min? with
  | none =>
      have none := List.min?_eq_none_iff.mp found
      exact absurd (List.map_eq_nil_iff.mp none) inhabited
  | some lowest =>
      obtain ⟨item, member, rfl⟩ := List.mem_map.mp (List.min?_mem found)
      refine ⟨item, member, rfl, fun other listed => ?_⟩
      exact (List.le_min?_iff found).mp (le_refl _) _
        (List.mem_map_of_mem listed)

theorem filter_perm_of_append [DecidableEq α] {left right all : List α}
    (perm : (left ++ right).Perm all) (distinct : all.Nodup) :
    (all.filter (· ∈ left)).Perm left ∧
      (all.filter fun item => !decide (item ∈ left)).Perm right := by
  have apart := List.disjoint_of_nodup_append (perm.nodup_iff.mpr distinct)
  constructor
  · apply (perm.symm.filter _).trans
    rw [List.filter_append, List.filter_eq_self.mpr, List.filter_eq_nil_iff.mpr,
      List.append_nil]
    · intro item member inside
      exact apart (of_decide_eq_true inside) member
    · exact fun item member => decide_eq_true member
  · apply (perm.symm.filter _).trans
    rw [List.filter_append, List.filter_eq_nil_iff.mpr, List.filter_eq_self.mpr,
      List.nil_append]
    · intro item member
      simpa using fun inside => apart inside member
    · intro item member
      simpa using member

section Record

variable {moments : Moments} {claimed : List Player}

theorem Moments.snapshots_record :
    (moments.record claimed).snapshots =
      ((exhaustiveBalance claimed).teamA ++
        (exhaustiveBalance claimed).teamB).map moments.snapshot :=
  List.map_append.symm

theorem ratingTotal_snapshots (players : List Player) :
    ratingTotal (players.map moments.snapshot) = sumOf players := by
  rw [ratingTotal, List.map_map]
  rfl

theorem ratingTotal_perm {team team' : List PlayerSnapshot}
    (perm : team.Perm team') : ratingTotal team = ratingTotal team' :=
  (perm.map PlayerSnapshot.skillRating).sum_eq

theorem teamSum_filter (distinct : claimed.Nodup) (admits : Player → Bool) :
    teamSum (claimed.filter admits).toFinset =
      sumOf (claimed.filter admits) :=
  List.sum_toFinset _ (distinct.filter _)

theorem teamSum_sdiff_filter (distinct : claimed.Nodup)
    (admits : Player → Bool) :
    teamSum (claimed.toFinset \ (claimed.filter admits).toFinset) =
      sumOf (claimed.filter fun player => !admits player) := by
  have rest : claimed.toFinset \ (claimed.filter admits).toFinset =
      (claimed.filter fun player => !admits player).toFinset := by
    ext player
    simp only [Finset.mem_sdiff, List.mem_toFinset, List.mem_filter,
      Bool.not_eq_true']
    by_cases admitted : admits player = true <;> simp [admitted]
  rw [rest]
  exact teamSum_filter distinct _

variable (ten : claimed.length = matchSize)
  (bounded : ∀ player ∈ claimed, player.skillRating ≤ 3000)
  (distinct : (claimed.map (·.id)).Nodup)
include ten bounded

theorem Moments.snapshots_perm :
    (moments.record claimed).snapshots.Perm
      (claimed.map moments.snapshot) := by
  rw [Moments.snapshots_record]
  exact (exhaustiveBalance_split ten bounded).2.2.map _

theorem Moments.waitTotal_record :
    (moments.record claimed).waitTotal = (claimed.map moments.waitMs).sum := by
  have perm := @Moments.snapshots_perm moments claimed ten bounded
  rw [Match.waitTotal, (perm.map PlayerSnapshot.waitMs).sum_eq, List.map_map]
  rfl

omit ten in
theorem totalRating_record {team : List Player}
    (within : ∀ player ∈ team, player ∈ claimed)
    (five : team.length = teamSize) :
    (Team.new (team.map moments.snapshot)).totalRating = sumOf team := by
  have each := List.sum_le_card_nsmul (team.map (·.skillRating)) 3000
    (by
      intro rating member
      obtain ⟨player, listed, rfl⟩ := List.mem_map.mp member
      exact bounded player (within player listed))
  rw [List.length_map, five, teamSize] at each
  rw [Team.new, List.map_map]
  apply Nat.mod_eq_of_lt
  refine lt_of_le_of_lt each (by decide)

include distinct

/-- No other five of the snapshots make a more even match. -/
theorem Moments.record_least {left right : List PlayerSnapshot}
    (perm : (left ++ right).Perm (moments.record claimed).snapshots)
    (five : left.length = teamSize) :
    (exhaustiveBalance claimed).teamDelta ≤
      absDiff (ratingTotal left) (ratingTotal right) := by
  have nodup : (claimed.map moments.snapshot).Nodup := by
    apply List.Nodup.of_map (·.id)
    rw [List.map_map]
    exact distinct
  obtain ⟨inside, outside⟩ := filter_perm_of_append
    (perm.trans (Moments.snapshots_perm ten bounded)) nodup
  rw [List.filter_map] at inside outside
  have total := ratingTotal_perm inside
  have total' := ratingTotal_perm outside
  have count := inside.length_eq
  rw [ratingTotal_snapshots] at total total'
  rw [List.length_map, five] at count
  obtain ⟨best, _, delta⟩ :=
    exhaustiveBalance_bestTeam distinct.of_map ten bounded
  have below := Prod.Lex.monotone_fst _ _ (best.2 (claimed.filter
    ((fun snapshot => decide (snapshot ∈ left)) ∘
      moments.snapshot)).toFinset ?_)
  · rw [← delta, teamKey, teamSum_filter distinct.of_map,
      teamSum_sdiff_filter distinct.of_map] at below
    rw [absDiff_eq, ← total, ← total']
    exact below
  · refine Finset.mem_powersetCard.mpr ⟨?_, ?_⟩
    · intro player member
      rw [List.mem_toFinset] at member ⊢
      exact List.mem_of_mem_filter member
    · rw [List.toFinset_card_of_nodup (distinct.of_map.filter _), count]

theorem Moments.record_truthful
    (small : (moments.record claimed).waitTotal < 2 ^ 64) :
    (moments.record claimed).Truthful := by
  have perm := @Moments.snapshots_perm moments claimed ten bounded
  obtain ⟨sizeA, sizeB, split⟩ := exhaustiveBalance_split ten bounded
  have inhabited : claimed ≠ [] := by
    rintro rfl
    cases ten
  have totalA := @totalRating_record moments claimed bounded _
    (fun player member => split.mem_iff.mp (List.mem_append_left _ member))
    sizeA
  have totalB := @totalRating_record moments claimed bounded _
    (fun player member => split.mem_iff.mp (List.mem_append_right _ member))
    sizeB
  have waits := @Moments.waitTotal_record moments claimed ten bounded
  have delta : (moments.record claimed).teamDelta =
      (exhaustiveBalance claimed).teamDelta := by
    obtain ⟨places, best, teamA, teamB, least, _⟩ :=
      exhaustiveBalance_places bounded
    have within := (Finset.mem_powersetCard.mp best.1).1
    show absDiff (Team.new _).totalRating (Team.new _).totalRating = _
    rw [totalA, totalB, absDiff_eq, least, splitDelta, sumOf, sumOf, teamA,
      teamB, sum_playersIn within, sum_playersIn Finset.sdiff_subset]
  have mem_snapshots : ∀ snapshot, snapshot ∈
      (moments.record claimed).snapshots ↔
        ∃ player ∈ claimed, moments.snapshot player = snapshot := by
    intro snapshot
    rw [perm.mem_iff, List.mem_map]
  refine ⟨?_, ?_, rfl, ⟨claimed, ten, ?_, ?_, ?_⟩, ?_, ?_, ?_, ?_⟩
  · exact totalA.trans (ratingTotal_snapshots _).symm
  · exact totalB.trans (ratingTotal_snapshots _).symm
  · exact List.map_map
  · exact List.map_map
  · exact delta
  · intro left right same five _
    exact delta.trans_le
      (Moments.record_least ten bounded distinct same five)
  · obtain ⟨highest, member, most, above⟩ :=
      exists_max inhabited Player.skillRating
    obtain ⟨lowest, member', least, below⟩ :=
      exists_min inhabited Player.skillRating
    refine ⟨_, (mem_snapshots _).mpr ⟨highest, member, rfl⟩, _,
      (mem_snapshots _).mpr ⟨lowest, member', rfl⟩, ?_, ?_⟩
    · intro snapshot listed
      obtain ⟨player, inside, rfl⟩ := (mem_snapshots snapshot).mp listed
      exact ⟨below player inside, above player inside⟩
    · exact congrArg₂ (· - ·) most least
  · obtain ⟨longest, member, most, above⟩ :=
      exists_max inhabited moments.waitMs
    refine ⟨⟨_, (mem_snapshots _).mpr ⟨longest, member, rfl⟩, most.symm⟩, ?_⟩
    intro snapshot listed
    obtain ⟨player, inside, rfl⟩ := (mem_snapshots snapshot).mp listed
    exact (above player inside).trans_eq most.symm
  · rw [waits] at small ⊢
    show (claimed.map moments.waitMs).sum % 2 ^ 64 /
      (claimed.map moments.waitMs).length = _
    rw [Nat.mod_eq_of_lt small, List.length_map, ten]

end Record

def Response.record : Response → Option Match
  | .attemptMatch (.success record) _ => some record
  | _ => none

/-- The matches that the calls formed, in this order. -/
def recordsOf (log : SessionLog) : List Match :=
  log.filterMap (·.answer.record)

/-- The counters that only a match changes. -/
def Metrics.sums (metrics : Metrics) : Nat × Nat × Nat × Nat × Nat × Nat :=
  (metrics.totalPlayersMatched, metrics.totalWaitTimeMs,
    metrics.skillSpreadSum, metrics.skillSpreadCount, metrics.teamDeltaSum,
    metrics.teamDeltaCount)

/-- What the core keeps of these matches. -/
structure Accounts (limit : Nat) (records : List Match) (core : Core) :
    Prop where
  history : core.history = records.drop (records.length - limit)
  sums : core.metrics.sums =
    (matchSize * records.length, (records.map Match.waitTotal).sum,
      (records.map Match.skillSpread).sum, records.length,
      (records.map Match.teamDelta).sum, records.length)

/-- The records, the history and the averages of these calls agree. -/
structure Chronicle (limit : Nat) (records : List Match) (core : Core) :
    Prop where
  truthful : ∀ record ∈ records, record.Truthful
  history : core.history = records.drop (records.length - limit)
  recent : ∀ k, MatchmakerCore.recentMatches core k =
    records.reverse.take (min k (min records.length limit))
  avgWaitMs : core.metrics.snapshot.avgWaitMs =
    if records.length = 0 then 0
    else (records.map Match.waitTotal).sum / (matchSize * records.length)
  avgSkillSpread : core.metrics.snapshot.avgSkillSpread =
    if records.length = 0 then 0
    else (records.map Match.skillSpread).sum / records.length
  avgTeamDelta : core.metrics.snapshot.avgTeamDelta =
    if records.length = 0 then 0
    else (records.map Match.teamDelta).sum / records.length

variable {passes : Clock → Clock → Prop} {config : Config} {limit : Nat}
  {workers workers' : Workers} {core core' : Core} {prior : List Match}

theorem Accounts.kept (accounts : Accounts limit prior core)
    (history : core'.history = core.history)
    (sums : core'.metrics.sums = core.metrics.sums) :
    Accounts limit prior core' :=
  ⟨history.trans accounts.history, sums.trans accounts.sums⟩

theorem drop_concat (records : List Match) (record : Match) (limit : Nat) :
    (records.drop (records.length - limit) ++ [record]).drop
        ((records.drop (records.length - limit)).length + 1 - limit) =
      (records ++ [record]).drop ((records ++ [record]).length - limit) := by
  rw [← List.drop_append_of_le_length (Nat.sub_le ..), List.drop_drop,
    List.length_drop, List.length_append, List.length_singleton]
  congr 1
  omega

theorem Accounts.form {ctx : WorkerContext} {players : List Player}
    {moments : Moments} (accounts : Accounts ctx.matchHistoryLimit prior core)
    (waits : (players.map moments.waitMs).sum % 2 ^ 64 =
      (moments.record players).waitTotal) :
    Accounts ctx.matchHistoryLimit (prior ++ [moments.record players])
      (core.form ctx players moments) where
  history := by
    show (core.history ++ [moments.record players]).drop
      (core.history.length + 1 - ctx.matchHistoryLimit) = _
    rw [accounts.history]
    exact drop_concat ..
  sums := by
    have sums := accounts.sums
    simp only [Metrics.sums, Prod.mk.injEq] at sums
    obtain ⟨matched, waited, spread, spreads, delta, deltas⟩ := sums
    show (core.metrics.totalPlayersMatched + matchSize,
      core.metrics.totalWaitTimeMs +
        (players.map moments.waitMs).sum % 2 ^ 64,
      core.metrics.skillSpreadSum + (moments.record players).skillSpread,
      core.metrics.skillSpreadCount + 1,
      core.metrics.teamDeltaSum + (moments.record players).teamDelta,
      core.metrics.teamDeltaCount + 1) = _
    rw [matched, waited, spread, spreads, delta, deltas, waits,
      List.length_append, List.length_singleton, List.map_append,
      List.map_append, List.map_append, List.sum_append, List.sum_append,
      List.sum_append]
    simp [Nat.mul_add]

theorem Accounts.serves {request : Request} {response : Response}
    (accounts : Accounts limit prior core) (resting : Resting core)
    (serves : core.Serves passes config limit workers request response workers'
      core') :
    (response.record = none → Accounts limit prior core') ∧
      ∀ record, response.record = some record → record.waitTotal < 2 ^ 64 →
        Accounts limit (prior ++ [record]) core' ∧ record.Truthful := by
  cases serves with
  | enqueue enqueues =>
      refine ⟨fun _ => ?_, nofun⟩
      cases enqueues with
      | invalid high drifts =>
          obtain ⟨clock, _, rfl⟩ := drifts
          exact accounts.kept rfl rfl
      | queued bounded found drifts =>
          obtain ⟨clock, _, rfl⟩ := drifts
          exact accounts.kept rfl rfl
      | joined bounded absent passed drifts =>
          obtain ⟨clock, _, rfl⟩ := drifts
          exact accounts.kept rfl rfl
  | cancel cancels =>
      refine ⟨fun _ => ?_, nofun⟩
      cases cancels with
      | notFound absent drifts =>
          obtain ⟨clock, _, rfl⟩ := drifts
          exact accounts.kept rfl rfl
      | currentlyBeingMatched found busy drifts =>
          obtain ⟨clock, _, rfl⟩ := drifts
          exact accounts.kept rfl rfl
      | cancelled found waiting drifts =>
          obtain ⟨clock, _, rfl⟩ := drifts
          exact accounts.kept rfl rfl
  | @attemptMatch workerId _ _ _ attempts =>
      cases attempts with
      | poolEmpty nobody drifts =>
          obtain ⟨clock, _, rfl⟩ := drifts
          exact ⟨fun _ => accounts.kept rfl rfl, nofun⟩
      | insufficient selects scans few staged drifts =>
          obtain ⟨clock, _, rfl⟩ := drifts
          exact ⟨fun _ => accounts.kept rfl rfl, nofun⟩
      | @success _ bounds moments _ selects scans enough after drifts =>
          obtain ⟨clock, _, rfl⟩ := drifts
          refine ⟨nofun, ?_⟩
          rintro _ ⟨⟩ small
          have consistent := resting.toConsistent
          have ten := Core.length_chosen consistent.toWellKeyed
            consistent.synchronised enough
          have bounded : ∀ player ∈ core.chosen bounds,
              player.skillRating ≤ 3000 := fun player member =>
            consistent.bounded (Core.chosen_found consistent member)
          have waits := @Moments.waitTotal_record moments _ ten bounded
          constructor
          · have counted : Accounts limit prior
                (core.count .workerCyclesTotal) := accounts.kept rfl rfl
            have formed := @Accounts.form (core.count .workerCyclesTotal)
              prior ⟨workerId, config, limit⟩ _ moments counted (by
                rw [← waits, Nat.mod_eq_of_lt small])
            exact formed.kept rfl rfl
          · exact Moments.record_truthful ten bounded
              (Core.nodup_chosen_ids consistent) small
  | reaperTick reaps =>
      obtain ⟨moment, _, clock, _, rfl⟩ := reaps
      exact ⟨fun _ => accounts.kept rfl rfl, nofun⟩

theorem checkedDiv_getD (dividend divisor : Nat) :
    (checkedDiv dividend divisor).getD 0 =
      if divisor = 0 then 0 else dividend / divisor := by
  unfold checkedDiv
  split <;> rfl

theorem Accounts.chronicle (accounts : Accounts limit prior core)
    (truthful : ∀ record ∈ prior, record.Truthful)
    (small : (prior.map Match.waitTotal).sum < 2 ^ 64) :
    Chronicle limit prior core := by
  have sums := accounts.sums
  simp only [Metrics.sums, Prod.mk.injEq] at sums
  obtain ⟨matched, waited, spread, spreads, delta, deltas⟩ := sums
  refine ⟨truthful, accounts.history, ?_, ?_, ?_, ?_⟩
  · intro k
    rw [MatchmakerCore.recentMatches, accounts.history, List.reverse_drop,
      List.take_take]
    congr 1
    omega
  · show (checkedDiv (core.metrics.totalWaitTimeMs % 2 ^ 64)
      core.metrics.totalPlayersMatched).getD 0 = _
    have none : matchSize * prior.length = 0 ↔ prior.length = 0 := by
      simp [matchSize]
    rw [checkedDiv_getD, matched, waited, Nat.mod_eq_of_lt small]
    simp only [none]
  · show (checkedDiv core.metrics.skillSpreadSum
      core.metrics.skillSpreadCount).getD 0 = _
    rw [checkedDiv_getD, spread, spreads]
  · show (checkedDiv core.metrics.teamDeltaSum
      core.metrics.teamDeltaCount).getD 0 = _
    rw [checkedDiv_getD, delta, deltas]

theorem recordsOf_cons
    (served : Program.Served semantics Request Response) (log : SessionLog) :
    recordsOf (served :: log) =
      served.answer.record.toList ++ recordsOf log := by
  rw [recordsOf, List.filterMap_cons]
  cases served.answer.record <;> rfl

/-- However long the calls go on and however short the history is, the records
are true, the history holds the last of them, and the averages are theirs. -/
theorem sessions_records [IsPreorder Clock passes] {clock : Clock}
    {log : SessionLog} {last : Workers} {final : Core}
    (sessions : Sessions passes config limit (fun _ => .new) (.new clock) log
      last final)
    (small : ((recordsOf log).map Match.waitTotal).sum < 2 ^ 64) :
    Chronicle limit (recordsOf log) final := by
  refine Sessions.induct (motive := fun _ core log _ final => ∀ prior,
    Accounts limit prior core → (∀ record ∈ prior, record.Truthful) →
      ((prior ++ recordsOf log).map Match.waitTotal).sum < 2 ^ 64 →
        Chronicle limit (prior ++ recordsOf log) final)
    ?_ ?_ (.new clock) sessions [] ⟨by simp [Core.new], rfl⟩ nofun small
  · intro _ core _ prior accounts truthful small
    rw [recordsOf, List.filterMap_nil, List.append_nil] at *
    exact accounts.chronicle truthful small
  · intro workers core request response workers' core' log _ _ resting serves
      induction prior accounts truthful small
    obtain ⟨kept, formed⟩ := accounts.serves resting serves
    rw [recordsOf_cons, ← List.append_assoc] at small ⊢
    cases found : response.record with
    | none =>
        rw [found, Option.toList_none, List.append_nil] at small
        rw [Option.toList_none, List.append_nil]
        exact induction prior (kept found) truthful small
    | some record =>
        rw [found, Option.toList_some] at small
        have alone : record.waitTotal < 2 ^ 64 := by
          simp only [List.map_append, List.map_singleton, List.sum_append,
            List.sum_singleton] at small
          omega
        obtain ⟨accounts', true'⟩ := formed record found alone
        refine induction (prior ++ [record]) accounts' ?_ small
        intro other member
        rcases List.mem_append.mp member with member | member
        · exact truthful other member
        · rw [List.mem_singleton.mp member]
          exact true'

/-- Twenty-two players join, three attempts are made, and one player leaves. -/
def twoMatches : List Request :=
  (List.range 22).map (fun i => .enqueue (Fin.ofNat _ (i + 1)) (1500 + i)) ++
    [.attemptMatch 1, .attemptMatch 2, .cancel 22, .attemptMatch 1]

def twoMatchesLog : SessionLog :=
  (@Program.serially _ _ _ _ semantics inOrder (serve .default 1) twoMatches
    (fun _ => .new) (Core.new ⟨0, 1000⟩)).1

set_option maxRecDepth 100000 in
theorem sessions_records_two :
    (recordsOf twoMatchesLog).length = 2 ∧
      ∃ last final, Sessions Eq .default 1 (fun _ => .new) (.new ⟨0, 1000⟩)
          twoMatchesLog last final ∧
        Chronicle 1 (recordsOf twoMatchesLog) final := by
  have sessions := @Program.serial_serially _ _ _ _ semantics
    (Core.Drifts Eq) (serve .default 1) Core.Drifts.refl inOrder twoMatches
    (fun _ => .new) (.new ⟨0, 1000⟩)
  refine ⟨by decide +kernel, _, _, sessions, ?_⟩
  exact sessions_records sessions (by decide +kernel)

end Matchmaker
