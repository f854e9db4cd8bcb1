import Matchmaker.Outcome.Records
import Matchmaker.Protocol.Composition
import Matchmaker.Protocol.Ends
import Matchmaker.Ranking.Halves

namespace Matchmaker

open Concurrent Ranking

/-! How good the published matches are, whatever went on around them. -/

/-- What the players of a published match can count on. -/
structure Fair (config : Config) (publication : Publication) : Prop where
  sizeA : publication.teamA.length = teamSize
  sizeB : publication.teamB.length = teamSize
  distinct : publication.players.Nodup
  ratingsA : publication.record.teamA.players.map (fun snapshot =>
      (snapshot.id, snapshot.skillRating)) =
    publication.teamA.map fun player => (player.id, player.skillRating)
  ratingsB : publication.record.teamB.players.map (fun snapshot =>
      (snapshot.id, snapshot.skillRating)) =
    publication.teamB.map fun player => (player.id, player.skillRating)
  totalA : publication.record.teamA.totalRating = sumOf publication.teamA
  totalB : publication.record.teamB.totalRating = sumOf publication.teamB
  order : sumOf publication.teamB ≤ sumOf publication.teamA
  delta : publication.record.teamDelta =
    sumOf publication.teamA - sumOf publication.teamB
  least : ∀ left right, (left ++ right).Perm publication.players →
    left.length = teamSize →
      publication.record.teamDelta ≤ absDiff (sumOf left) (sumOf right)
  spread : ∃ highest ∈ publication.players, ∃ lowest ∈ publication.players,
    (∀ player ∈ publication.players,
      lowest.skillRating ≤ player.skillRating ∧
        player.skillRating ≤ highest.skillRating) ∧
    publication.record.skillSpread = highest.skillRating - lowest.skillRating
  even : publication.record.teamDelta ≤ publication.record.skillSpread
  near : publication.record.skillSpread ≤
    min (2 * config.relaxationStage5Delta) maxSkillRating
  waits : publication.record.avgWaitMs ≤ publication.record.maxWaitMs

section Teams

variable {claimed players : List Player} {team : Team}

theorem Portrays.captured (portrays : Portrays players team) :
    team.players.map (fun snapshot => (snapshot.id, snapshot.skillRating)) =
      players.map fun player => (player.id, player.skillRating) := by
  obtain ⟨snapshots, rfl, captured⟩ := portrays
  show snapshots.map _ = _
  induction captured with
  | nil => rfl
  | cons captures _ induction =>
      rw [List.map_cons, List.map_cons, induction, captures.id,
        captures.skillRating]

theorem sumOf_le (bounded : ∀ player ∈ players,
    player.skillRating ≤ maxSkillRating) :
    sumOf players ≤ players.length * maxSkillRating := by
  have each := List.sum_le_card_nsmul (players.map (·.skillRating))
    maxSkillRating (by
      intro rating member
      obtain ⟨player, listed, rfl⟩ := List.mem_map.mp member
      exact bounded player listed)
  rw [List.length_map] at each
  exact each

theorem Portrays.totalRating (portrays : Portrays players team)
    (five : players.length = teamSize)
    (bounded : ∀ player ∈ players, player.skillRating ≤ maxSkillRating) :
    team.totalRating = sumOf players := by
  have ratings := congrArg (List.map Prod.snd) portrays.captured
  simp only [List.map_map] at ratings
  have below := sumOf_le bounded
  rw [five] at below
  obtain ⟨snapshots, rfl, _⟩ := portrays
  show (snapshots.map (·.skillRating)).sum % 2 ^ 32 = sumOf players
  rw [show snapshots.map (·.skillRating) = players.map (·.skillRating) from
    ratings]
  exact Nat.mod_eq_of_lt (below.trans_lt (by decide))

variable (ten : claimed.length = matchSize) (distinct : claimed.Nodup)
  (bounded : ∀ player ∈ claimed, player.skillRating ≤ maxSkillRating)
include ten distinct bounded

theorem exhaustiveBalance_least {left right : List Player}
    (perm : (left ++ right).Perm claimed) (five : left.length = teamSize) :
    (exhaustiveBalance claimed).teamDelta ≤
      absDiff (sumOf left) (sumOf right) := by
  obtain ⟨inside, outside⟩ := filter_perm_of_append perm distinct
  obtain ⟨best, _, delta⟩ := exhaustiveBalance_bestTeam distinct ten bounded
  have among : (claimed.filter (· ∈ left)).toFinset ∈
      claimed.toFinset.powersetCard teamSize := by
    refine Finset.mem_powersetCard.mpr ⟨?_, ?_⟩
    · intro player member
      rw [List.mem_toFinset] at member ⊢
      exact List.mem_of_mem_filter member
    · rw [List.toFinset_card_of_nodup (distinct.filter _), inside.length_eq,
        five]
  have below := Prod.Lex.monotone_fst _ _ (best.2 _ among)
  rw [← delta, teamKey, teamSum_filter distinct, teamSum_sdiff_filter distinct]
    at below
  rw [absDiff_eq, sumOf, sumOf,
    ← (inside.map Player.skillRating).sum_eq,
    ← (outside.map Player.skillRating).sum_eq]
  exact below

/-- Dealing the ten out by rating is not better than the best split. -/
theorem exhaustiveBalance_even {lowest highest : Nat}
    (within : ∀ player ∈ claimed,
      lowest ≤ player.skillRating ∧ player.skillRating ≤ highest) :
    (exhaustiveBalance claimed).teamDelta ≤ highest - lowest := by
  obtain ⟨left, right, perm, five, _, below, above⟩ :=
    @exists_halves Player Player.skillRating claimed lowest highest teamSize
      ten within
  have least := exhaustiveBalance_least ten distinct bounded perm five
  change sumOf left ≤ sumOf right at below
  change sumOf right ≤ sumOf left + (highest - lowest) at above
  rw [absDiff_eq] at least
  omega

end Teams

theorem mean_le_max (values : List Nat) :
    values.sum % 2 ^ 64 / values.length ≤ values.max?.getD 0 := by
  cases values with
  | nil => rfl
  | cons first rest =>
      obtain ⟨_, _, most, above⟩ :=
        @exists_max Nat (first :: rest) (by simp) id
      rw [List.map_id] at most
      have each := List.sum_le_card_nsmul (first :: rest)
        ((first :: rest).max?.getD 0) (by
          intro value member
          rw [most]
          exact above value member)
      apply Nat.div_le_of_le_mul
      exact (Nat.mod_le _ _).trans each

section Composed

variable {config : Config} {claimed teamA teamB : List Player}
  {record : Match} {caller : Nat}

theorem Composed.fair (staged : config.Staged)
    (composed : Composed config claimed teamA teamB record) :
    Fair config ⟨caller, teamA, teamB, record⟩ := by
  obtain ⟨ten, distinct, bounded, ⟨elapsedMs, window⟩, rfl, rfl,
    waitTimesMs, skillSpread, built⟩ := composed
  obtain ⟨sizeA, sizeB, perm⟩ := exhaustiveBalance_split ten bounded
  have optimal := exhaustiveBalance_optimal ten bounded
  have inhabited : claimed ≠ [] := by
    intro empty
    rw [empty] at ten
    cases ten
  have totalA := built.teamA.totalRating sizeA fun player member =>
    bounded player (perm.mem_iff.mp (List.mem_append_left _ member))
  have totalB := built.teamB.totalRating sizeB fun player member =>
    bounded player (perm.mem_iff.mp (List.mem_append_right _ member))
  have order := optimal.order
  have delta : record.teamDelta = (exhaustiveBalance claimed).teamDelta := by
    rw [built.delta, totalA, totalB, absDiff_eq, optimal.delta]
  obtain ⟨highest, member, most, above⟩ :=
    exists_max inhabited Player.skillRating
  obtain ⟨lowest, member', least, below⟩ :=
    exists_min inhabited Player.skillRating
  have spread : record.skillSpread =
      highest.skillRating - lowest.skillRating := by
    rw [built.recorded, built.spread, most, least]
  have within : ∀ player ∈ claimed, lowest.skillRating ≤ player.skillRating ∧
      player.skillRating ≤ highest.skillRating :=
    fun player listed => ⟨below player listed, above player listed⟩
  exact {
    sizeA
    sizeB
    distinct := perm.nodup_iff.mpr distinct
    ratingsA := built.teamA.captured
    ratingsB := built.teamB.captured
    totalA
    totalB
    order
    delta := by
      show record.teamDelta = sumOf (exhaustiveBalance claimed).teamA -
        sumOf (exhaustiveBalance claimed).teamB
      rw [delta, optimal.delta]
      omega
    least := by
      intro left right split five
      show record.teamDelta ≤ _
      rw [delta]
      exact exhaustiveBalance_least ten distinct bounded (split.trans perm) five
    spread := ⟨highest, perm.mem_iff.mpr member, lowest,
      perm.mem_iff.mpr member', fun player listed =>
        within player (perm.mem_iff.mp listed), spread⟩
    even := by
      show record.teamDelta ≤ record.skillSpread
      rw [delta, spread]
      exact exhaustiveBalance_even ten distinct bounded within
    near := by
      have wide := (staged.windowAfter_within elapsedMs).2
      have close := window highest member lowest member'
      have top := bounded highest member
      show record.skillSpread ≤ _
      rw [spread]
      omega
    waits := by
      show record.avgWaitMs ≤ record.maxWaitMs
      rw [built.mean, built.longest]
      exact mean_le_max waitTimesMs }

end Composed

/-- Whatever the interleaving, resets of live claims included: the teams of a
published match are as even as its ten players allow, and its ratings are no
further apart than the widest window lets them. -/
theorem published_fair {config : Config} {clock : Clock} {system : System}
    (accepted : config.validate = .ok ())
    (run : Run config clock .free system) {publication : Publication}
    (member : publication ∈ publications system.trace) :
    Fair config publication := by
  obtain ⟨claimed, composed⟩ := Run.composed run member
  exact composed.fair (Config.validate_staged accepted)

set_option maxRecDepth 100000 in
/-- Ten players of two ratings, and the match that is made of them. -/
theorem published_fair_match :
    ∃ system publication, Run .default ⟨0, 1000⟩ .free system ∧
      publication ∈ publications system.trace ∧ Fair .default publication ∧
      publication.record.skillSpread = 40 := by
  obtain ⟨system, run, check⟩ : ∃ system,
      Run .default ⟨0, 1000⟩ .free system ∧
        ((publications system.trace).head?.any fun publication =>
          publication.record.skillSpread = 40) = true := by
    apply exists_run_of_play (arrivals 5 1500 ++
      (List.range 5).flatMap (fun i => .start (.enqueue (Fin.ofNat _ (i + 6))
        1540) :: turns (i + 5) 8) ++
      .start (.attemptMatch 1) :: turns 10 147)
    decide +kernel
  obtain ⟨publication, head, spread⟩ := (Option.any_eq_true _ _).mp check
  have member := List.mem_of_head? head
  exact ⟨system, publication, run, member, published_fair rfl run member,
    of_decide_eq_true spread⟩

end Matchmaker
