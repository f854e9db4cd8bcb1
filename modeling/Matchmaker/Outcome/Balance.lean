import Mathlib.Algebra.BigOperators.Group.Finset.Basic
import Matchmaker.Engine.Split

namespace Matchmaker

open Ranking

/-! How good the split of ten players is, and what it depends on. -/

def sumOf (team : List Player) : Nat := (team.map (·.skillRating)).sum

/-- Five against five, with the least difference there is. -/
structure Optimal (players : List Player) (result : BalanceResult) :
    Prop where
  sizeA : result.teamA.length = teamSize
  sizeB : result.teamB.length = teamSize
  places : ∃ places ∈ fivePlaces,
    result.teamA = playersIn players places ∧
      result.teamB = playersIn players (allPlaces \ places)
  perm : (result.teamA ++ result.teamB).Perm players
  total : result.totalRating = sumOf players
  delta : result.teamDelta =
    ((sumOf result.teamA : Int) - sumOf result.teamB).natAbs
  least : ∀ places ∈ fivePlaces, result.teamDelta ≤ splitDelta players places
  order : sumOf result.teamB ≤ sumOf result.teamA

section Optimal

variable {players : List Player} {places : Finset Nat}

theorem compl_mem_fivePlaces (five : places ∈ fivePlaces) :
    allPlaces \ places ∈ fivePlaces := by
  obtain ⟨within, card⟩ := Finset.mem_powersetCard.mp five
  refine Finset.mem_powersetCard.mpr ⟨Finset.sdiff_subset, ?_⟩
  rw [Finset.card_sdiff_of_subset within, card, Finset.card_range]
  rfl

theorem splitDelta_compl (within : places ⊆ allPlaces) :
    splitDelta players (allPlaces \ places) = splitDelta players places := by
  rw [splitDelta, splitDelta, Finset.sdiff_sdiff_eq_self within]
  omega

theorem BestPlaces.order (best : BestPlaces players places) :
    ratingSum players (allPlaces \ places) ≤ ratingSum players places := by
  have within := (Finset.mem_powersetCard.mp best.1).1
  have below := best.2 _ (compl_mem_fivePlaces best.1)
  rw [splitKey, splitKey, splitDelta_compl within, Prod.Lex.le_iff] at below
  rcases below with less | ⟨_, order⟩
  · exact absurd less (lt_irrefl _)
  · exact OrderDual.toDual_le_toDual.mp order

theorem BestPlaces.least (best : BestPlaces players places)
    {other : Finset Nat} (five : other ∈ fivePlaces) :
    splitDelta players places ≤ splitDelta players other := by
  have below := best.2 other five
  rw [splitKey, splitKey, Prod.Lex.le_iff] at below
  rcases below with less | ⟨same, _⟩
  · exact le_of_lt less
  · exact le_of_eq same

theorem exhaustiveBalance_optimal (ten : players.length = matchSize)
    (bounded : ∀ player ∈ players, player.skillRating ≤ 3000) :
    Optimal players (exhaustiveBalance players) := by
  obtain ⟨places, best, teamA, teamB, delta, total⟩ :=
    exhaustiveBalance_places bounded
  obtain ⟨sizeA, sizeB, perm⟩ := exhaustiveBalance_split ten bounded
  have within := (Finset.mem_powersetCard.mp best.1).1
  have sumA : sumOf (exhaustiveBalance players).teamA =
      ratingSum players places := by
    rw [teamA]
    exact sum_playersIn within
  have sumB : sumOf (exhaustiveBalance players).teamB =
      ratingSum players (allPlaces \ places) := by
    rw [teamB]
    exact sum_playersIn Finset.sdiff_subset
  refine ⟨sizeA, sizeB, ⟨places, best.1, teamA, teamB⟩, perm, ?_, ?_, ?_, ?_⟩
  · rw [total]
    exact ratingSum_allPlaces ten
  · rw [delta, sumA, sumB, splitDelta]
  · rw [delta]
    exact fun other five => best.least five
  · rw [sumA, sumB]
    exact best.order

end Optimal

/-- Ten players with equal gaps between their ratings. -/
def ladder (gap : Nat) : List Player :=
  (List.range 10).map fun i =>
    { address := i, id := Fin.ofNat _ (i + 1), skillRating := 1000 + gap * i,
      joinTimestamp := i }

theorem exhaustiveBalance_optimal_ladder :
    Optimal (ladder 100) (exhaustiveBalance (ladder 100)) :=
  exhaustiveBalance_optimal (by decide) (by decide)

/-- The two results put the same players on the same teams. -/
structure SameSplit (first second : BalanceResult) : Prop where
  delta : first.teamDelta = second.teamDelta
  total : first.totalRating = second.totalRating
  teamA : ∀ player, player ∈ first.teamA ↔ player ∈ second.teamA
  teamB : ∀ player, player ∈ first.teamB ↔ player ∈ second.teamB

def teamSum (team : Finset Player) : Nat :=
  ∑ player ∈ team, player.skillRating

def teamKey (players team : Finset Player) : Nat ×ₗ Natᵒᵈ :=
  toLex (((teamSum team : Int) - teamSum (players \ team)).natAbs,
    OrderDual.toDual (teamSum team))

/-- No other five of the players make a better team A. -/
def BestTeam (players : List Player) (team : Finset Player) : Prop :=
  team ∈ players.toFinset.powersetCard teamSize ∧
    ∀ other ∈ players.toFinset.powersetCard teamSize,
      teamKey players.toFinset team ≤ teamKey players.toFinset other

section Order

variable {players : List Player} {places : Finset Nat}

theorem BestTeam.perm {permuted : List Player} {team : Finset Player}
    (perm : permuted.Perm players) (best : BestTeam permuted team) :
    BestTeam players team := by
  rw [BestTeam, List.toFinset_eq_of_perm _ _ perm] at best
  exact best

variable (distinct : players.Nodup) (ten : players.length = matchSize)
include distinct ten

theorem toFinset_compl :
    (playersIn players (allPlaces \ places)).toFinset =
      players.toFinset \ (playersIn players places).toFinset := by
  have perm := @playersIn_perm players ten places
  have apart := List.disjoint_of_nodup_append (perm.nodup_iff.mpr distinct)
  ext player
  rw [Finset.mem_sdiff, List.mem_toFinset, List.mem_toFinset,
    List.mem_toFinset, ← perm.mem_iff, List.mem_append]
  constructor
  · intro member
    exact ⟨.inr member, fun other => apart other member⟩
  · rintro ⟨member | member, outside⟩
    · exact absurd member outside
    · exact member

theorem nodup_playersIn : (playersIn players places).Nodup :=
  (List.nodup_append.mp
    ((@playersIn_perm players ten places).nodup_iff.mpr distinct)).1

theorem teamKey_playersIn (within : places ⊆ allPlaces) :
    teamKey players.toFinset (playersIn players places).toFinset =
      splitKey players places := by
  have sums : ∀ {places}, places ⊆ allPlaces →
      teamSum (playersIn players places).toFinset =
        ratingSum players places := by
    intro places within
    rw [teamSum, List.sum_toFinset _ (nodup_playersIn distinct ten)]
    exact sum_playersIn within
  rw [teamKey, ← toFinset_compl distinct ten, sums within,
    sums Finset.sdiff_subset]
  rfl

theorem mem_powersetCard_playersIn (five : places ∈ fivePlaces) :
    (playersIn players places).toFinset ∈
      players.toFinset.powersetCard teamSize := by
  obtain ⟨within, card⟩ := Finset.mem_powersetCard.mp five
  refine Finset.mem_powersetCard.mpr ⟨?_, ?_⟩
  · intro player member
    rw [List.mem_toFinset] at member ⊢
    exact (playersIn_perm ten).mem_iff.mp (List.mem_append_left _ member)
  · rw [List.toFinset_card_of_nodup (nodup_playersIn distinct ten),
      length_playersIn ten within, card]

theorem exists_places {team : Finset Player}
    (five : team ∈ players.toFinset.powersetCard teamSize) :
    ∃ places ∈ fivePlaces, (playersIn players places).toFinset = team := by
  obtain ⟨inside, card⟩ := Finset.mem_powersetCard.mp five
  let places := allPlaces.filter fun place => ∃ player ∈ team,
    players[place]? = some player
  have seated : (playersIn players places).toFinset = team := by
    ext player
    rw [List.mem_toFinset, playersIn, List.mem_filterMap]
    constructor
    · intro given
      obtain ⟨place, listed, found⟩ := given
      have chosen := of_decide_eq_true (List.mem_filter.mp listed).2
      obtain ⟨other, member, found'⟩ := (Finset.mem_filter.mp chosen).2
      rw [found] at found'
      cases found'
      exact member
    · intro member
      obtain ⟨place, found⟩ := List.mem_iff_getElem?.mp
        (List.mem_toFinset.mp (inside member))
      have below : place < matchSize := by
        rw [← ten]
        exact (List.getElem?_eq_some_iff.mp found).1
      have chosen : place ∈ places := Finset.mem_filter.mpr
        ⟨Finset.mem_range.mpr below, player, member, found⟩
      exact ⟨place, List.mem_filter.mpr
        ⟨List.mem_range.mpr below, decide_eq_true chosen⟩, found⟩
  refine ⟨places, Finset.mem_powersetCard.mpr ⟨Finset.filter_subset .., ?_⟩,
    seated⟩
  rw [← length_playersIn ten (Finset.filter_subset ..),
    ← List.toFinset_card_of_nodup (nodup_playersIn distinct ten), seated, card]

theorem BestPlaces.team (best : BestPlaces players places) :
    BestTeam players (playersIn players places).toFinset := by
  refine ⟨mem_powersetCard_playersIn distinct ten best.1, ?_⟩
  intro other five
  obtain ⟨others, five', rfl⟩ := exists_places distinct ten five
  rw [teamKey_playersIn distinct ten (Finset.mem_powersetCard.mp best.1).1,
    teamKey_playersIn distinct ten (Finset.mem_powersetCard.mp five').1]
  exact best.2 others five'

theorem BestTeam.bestPlaces (five : places ∈ fivePlaces)
    (best : BestTeam players (playersIn players places).toFinset) :
    BestPlaces players places := by
  refine ⟨five, ?_⟩
  intro other five'
  have below := best.2 _ (mem_powersetCard_playersIn distinct ten five')
  rw [teamKey_playersIn distinct ten (Finset.mem_powersetCard.mp five).1,
    teamKey_playersIn distinct ten (Finset.mem_powersetCard.mp five').1]
    at below
  exact below

variable (bounded : ∀ player ∈ players, player.skillRating ≤ 3000)
include bounded

theorem exhaustiveBalance_bestTeam :
    BestTeam players (exhaustiveBalance players).teamA.toFinset ∧
      (exhaustiveBalance players).teamB.toFinset =
        players.toFinset \ (exhaustiveBalance players).teamA.toFinset ∧
      (exhaustiveBalance players).teamDelta = (ofLex (teamKey players.toFinset
        (exhaustiveBalance players).teamA.toFinset)).1 := by
  obtain ⟨places, best, teamA, teamB, delta, _⟩ :=
    exhaustiveBalance_places bounded
  have within := (Finset.mem_powersetCard.mp best.1).1
  rw [teamA, teamB, delta, teamKey_playersIn distinct ten within]
  exact ⟨best.team distinct ten, toFinset_compl distinct ten, rfl⟩

theorem teamA_of_first
    (best : BestTeam players (players.take teamSize).toFinset) :
    (exhaustiveBalance players).teamA = players.take teamSize := by
  have five : Masks.placesOf matchSize 31 ∈ fivePlaces := by decide
  have first : playersIn players (Masks.placesOf matchSize 31) =
      players.take teamSize := by
    rw [← (playersAt_eq ..).1, playersAt_first]
  rw [← first] at best
  rw [exhaustiveBalance, totalSum_eq bounded, bestSplit_first bounded
    (best.bestPlaces distinct ten five)]
  exact playersAt_first players

end Order

/-- The players of a team, and then the others. -/
def putFirst (team : Finset Player) (players : List Player) : List Player :=
  players.filter (· ∈ team) ++ players.filter (· ∉ team)

theorem putFirst_perm (team : Finset Player) (players : List Player) :
    (putFirst team players).Perm players := by
  have both := List.filter_append_perm (fun player => decide (player ∈ team))
    players
  simpa [putFirst] using both

section Permuted

variable {players : List Player} (ten : players.length = matchSize)
  (bounded : ∀ player ∈ players, player.skillRating ≤ 3000)
  (distinct : (players.map (·.id)).Nodup)
include ten bounded distinct

omit distinct in
theorem totalRating_perm {permuted : List Player}
    (perm : permuted.Perm players) :
    (exhaustiveBalance permuted).totalRating =
      (exhaustiveBalance players).totalRating := by
  obtain ⟨_, _, _, _, _, total⟩ := exhaustiveBalance_places bounded
  obtain ⟨_, _, _, _, _, total'⟩ := @exhaustiveBalance_places permuted
    fun player member => bounded player (perm.mem_iff.mp member)
  rw [total, total', ratingSum_allPlaces ten,
    ratingSum_allPlaces (perm.length_eq.trans ten),
    (perm.map (·.skillRating)).sum_eq]

theorem BestTeam.putFirst {team : Finset Player}
    (best : BestTeam players team) :
    (exhaustiveBalance (putFirst team players)).teamA.toFinset = team := by
  obtain ⟨inside, card⟩ := Finset.mem_powersetCard.mp best.1
  have perm := putFirst_perm team players
  have members : (players.filter (· ∈ team)).toFinset = team := by
    ext player
    rw [List.mem_toFinset, List.mem_filter, decide_eq_true_eq]
    exact and_iff_right_of_imp fun member => List.mem_toFinset.mp (inside member)
  have length : (players.filter (· ∈ team)).length = teamSize := by
    rw [← List.toFinset_card_of_nodup (distinct.of_map.filter _), members, card]
  have first : (Matchmaker.putFirst team players).take teamSize =
      players.filter (· ∈ team) :=
    List.take_left' length
  rw [teamA_of_first (perm.nodup_iff.mpr distinct.of_map)
    (perm.length_eq.trans ten) (fun player member =>
      bounded player (perm.mem_iff.mp member)), first, members]
  rw [first, members]
  exact best.perm perm.symm

/-- The order of the players makes no difference to the numbers, and none to
the teams exactly when there is only one best team. -/
theorem exhaustiveBalance_order_iff :
    (∀ permuted : List Player, permuted.Perm players →
        (exhaustiveBalance permuted).teamDelta =
            (exhaustiveBalance players).teamDelta ∧
          (exhaustiveBalance permuted).totalRating =
            (exhaustiveBalance players).totalRating) ∧
      ((∀ permuted : List Player, permuted.Perm players →
          SameSplit (exhaustiveBalance permuted) (exhaustiveBalance players)) ↔
        ∀ team other, BestTeam players team → BestTeam players other →
          team = other) := by
  have own := exhaustiveBalance_bestTeam distinct.of_map ten bounded
  have others : ∀ permuted : List Player, permuted.Perm players →
      BestTeam players (exhaustiveBalance permuted).teamA.toFinset ∧
        (exhaustiveBalance permuted).teamB.toFinset = players.toFinset \
          (exhaustiveBalance permuted).teamA.toFinset ∧
        (exhaustiveBalance permuted).teamDelta =
          (ofLex (teamKey players.toFinset
            (exhaustiveBalance permuted).teamA.toFinset)).1 := by
    intro permuted perm
    obtain ⟨best, teamB, delta⟩ := exhaustiveBalance_bestTeam
      (perm.nodup_iff.mpr distinct.of_map) (perm.length_eq.trans ten)
      fun player member => bounded player (perm.mem_iff.mp member)
    rw [List.toFinset_eq_of_perm _ _ perm] at teamB delta
    exact ⟨best.perm perm, teamB, delta⟩
  have numbers : ∀ permuted : List Player, permuted.Perm players →
      (exhaustiveBalance permuted).teamDelta =
          (exhaustiveBalance players).teamDelta ∧
        (exhaustiveBalance permuted).totalRating =
          (exhaustiveBalance players).totalRating := by
    intro permuted perm
    obtain ⟨best, _, delta⟩ := others permuted perm
    have keys := le_antisymm (best.2 _ own.1.1) (own.1.2 _ best.1)
    rw [delta, own.2.2, keys]
    exact ⟨rfl, totalRating_perm ten bounded perm⟩
  refine ⟨numbers, ?_, ?_⟩
  · intro same team other best best'
    have first : ∀ {team}, BestTeam players team →
        (exhaustiveBalance players).teamA.toFinset = team := by
      intro team best
      rw [← best.putFirst ten bounded distinct]
      ext player
      rw [List.mem_toFinset, List.mem_toFinset]
      exact ((same _ (putFirst_perm team players)).teamA player).symm
    rw [← first best, ← first best']
  · intro unique permuted perm
    obtain ⟨best, teamB, _⟩ := others permuted perm
    have teamA := unique _ _ best own.1
    rw [teamA, ← own.2.1] at teamB
    refine ⟨(numbers permuted perm).1, (numbers permuted perm).2, ?_, ?_⟩
    · intro player
      rw [← List.mem_toFinset, teamA, List.mem_toFinset]
    · intro player
      rw [← List.mem_toFinset, teamB, List.mem_toFinset]

end Permuted

/-- Ten players, each rated twice as high as the one before. -/
def doubling : List Player :=
  (List.range 10).map fun i =>
    { address := i, id := Fin.ofNat _ (i + 1), skillRating := 2 ^ i,
      joinTimestamp := i }

def highestAndLowest : Finset Player :=
  (doubling.filter fun player =>
    player.skillRating = 512 ∨ player.skillRating ≤ 8).toFinset

set_option maxRecDepth 100000 in
theorem bestTeam_doubling_iff {team : Finset Player} :
    BestTeam doubling team ↔ team = highestAndLowest := by
  have only : highestAndLowest ∈ doubling.toFinset.powersetCard teamSize ∧
      ∀ other ∈ doubling.toFinset.powersetCard teamSize,
        teamKey doubling.toFinset other ≤
            teamKey doubling.toFinset highestAndLowest →
          other = highestAndLowest := by
    decide +kernel
  constructor
  · intro best
    exact only.2 team best.1 (best.2 _ only.1)
  · rintro rfl
    refine ⟨only.1, fun other member => ?_⟩
    rcases le_total (teamKey doubling.toFinset highestAndLowest)
      (teamKey doubling.toFinset other) with better | worse
    · exact better
    · rw [only.2 other member worse]

/-- There is one best team of these, and every order gives it. -/
theorem exhaustiveBalance_order_iff_doubling :
    BestTeam doubling highestAndLowest ∧
      ∀ permuted : List Player, permuted.Perm doubling →
        SameSplit (exhaustiveBalance permuted)
          (exhaustiveBalance doubling) := by
  refine ⟨bestTeam_doubling_iff.mpr rfl, ?_⟩
  apply (exhaustiveBalance_order_iff (by decide) (by decide) (by decide)).2.mpr
  intro team other best best'
  rw [bestTeam_doubling_iff.mp best, bestTeam_doubling_iff.mp best']

/-- Ten players of one rating get other teams when they are listed backwards. -/
theorem exists_order_dependent :
    ∃ players permuted : List Player, players.length = matchSize ∧
      (∀ player ∈ players, player.skillRating ≤ 3000) ∧
      (players.map (·.id)).Nodup ∧ permuted.Perm players ∧
      ¬ SameSplit (exhaustiveBalance permuted) (exhaustiveBalance players) := by
  refine ⟨ladder 0, (ladder 0).reverse, by decide, by decide, by decide,
    List.reverse_perm _, ?_⟩
  intro same
  have members : ∀ player ∈ (exhaustiveBalance (ladder 0)).teamA,
      player ∈ (exhaustiveBalance (ladder 0).reverse).teamA :=
    fun player => (same.teamA player).mpr
  revert members
  decide +kernel

end Matchmaker
