import Mathlib.Algebra.Order.BigOperators.Group.Finset
import Mathlib.Data.Finset.Powerset
import Mathlib.Data.Prod.Lex
import Mathlib.Order.OrderDual
import Matchmaker.Engine.Balancer
import Matchmaker.Masks.Places
import Matchmaker.Ranking.Least

namespace Matchmaker

open Masks Ranking

/-! The balancer splits ten players into two teams of five. -/

abbrev allPlaces : Finset Nat := Finset.range matchSize

abbrev fivePlaces : Finset (Finset Nat) := allPlaces.powersetCard teamSize

def ratingSum (players : List Player) (places : Finset Nat) : Nat :=
  ∑ place ∈ places, ratingAt players place

def splitDelta (players : List Player) (places : Finset Nat) : Nat :=
  ((ratingSum players places : Int) -
    ratingSum players (allPlaces \ places)).natAbs

/-- The smaller difference comes first, then the stronger team A. -/
def splitKey (players : List Player) (places : Finset Nat) : Nat ×ₗ Natᵒᵈ :=
  toLex (splitDelta players places,
    OrderDual.toDual (ratingSum players places))

/-- No other five places come before these. -/
def BestPlaces (players : List Player) (places : Finset Nat) : Prop :=
  places ∈ fivePlaces ∧
    ∀ other ∈ fivePlaces, splitKey players places ≤ splitKey players other

def playersIn (players : List Player) (places : Finset Nat) : List Player :=
  ((List.range matchSize).filter (· ∈ places)).filterMap
    fun place => players[place]?

section Masks

private theorem range_sixteen :
    List.range 16 = List.range matchSize ++ [10, 11, 12, 13, 14, 15] := by
  decide

theorem countOnes_eq {mask : Nat} (small : mask < 1024) :
    countOnes mask = (placesOf matchSize mask).card := by
  have high : ∀ bit, 10 ≤ bit → mask.testBit bit = false := by
    intro bit above
    have power : 2 ^ 10 ≤ 2 ^ bit := Nat.pow_le_pow_right (by omega) above
    exact Nat.testBit_lt_two_pow (lt_of_lt_of_le small power)
  rw [card_placesOf, countOnes, range_sixteen, List.countP_append]
  simp [high]

/-- The masks that the loop does not skip, in its order. -/
def fiveMasks : List Nat :=
  (List.range 1024).filter fun mask => countOnes mask = teamSize

theorem mem_fiveMasks {mask : Nat} :
    mask ∈ fiveMasks ↔
      mask < 1024 ∧ placesOf matchSize mask ∈ fivePlaces := by
  rw [fiveMasks, List.mem_filter, List.mem_range, Finset.mem_powersetCard]
  constructor
  · intro found
    obtain ⟨small, ones⟩ := found
    refine ⟨small, placesOf_subset, ?_⟩
    rw [← countOnes_eq small]
    exact of_decide_eq_true ones
  · intro found
    obtain ⟨small, _, card⟩ := found
    refine ⟨small, decide_eq_true ?_⟩
    rw [countOnes_eq small, card]

theorem fiveMasks_eq : ∃ rest, fiveMasks = 31 :: rest :=
  ⟨fiveMasks.tail, by decide +kernel⟩

theorem playersAt_eq (players : List Player) (mask : Nat) :
    playersAt players mask true =
        playersIn players (placesOf matchSize mask) ∧
      playersAt players mask false =
        playersIn players (allPlaces \ placesOf matchSize mask) := by
  rw [compl_placesOf]
  constructor <;>
  · rw [playersAt, playersIn]
    congr 1
    apply List.filter_congr
    intro place member
    have below := List.mem_range.mp member
    simp [mem_placesOf, below]

end Masks

section Sums

variable {players : List Player} {limit : Nat} {places : Finset Nat}

theorem ratingAt_le (bounded : ∀ player ∈ players, player.skillRating ≤ limit)
    (i : Nat) : ratingAt players i ≤ limit := by
  unfold ratingAt
  cases found : players[i]? with
  | none => exact Nat.zero_le _
  | some player => exact bounded player (List.mem_of_getElem? found)

theorem ratingSum_add_compl (within : places ⊆ allPlaces) :
    ratingSum players places + ratingSum players (allPlaces \ places) =
      ratingSum players allPlaces := by
  rw [ratingSum, ratingSum, Nat.add_comm]
  exact Finset.sum_sdiff within

variable (bounded : ∀ player ∈ players, player.skillRating ≤ 3000)
include bounded

theorem ratingSum_le (within : places ⊆ allPlaces) :
    ratingSum players places ≤ 30000 := by
  have each := Finset.sum_le_card_nsmul places (ratingAt players) 3000
    fun place _ => ratingAt_le bounded place
  have few := Finset.card_le_card within
  rw [Finset.card_range, matchSize] at few
  rw [Nat.nsmul_eq_mul] at each
  exact le_trans each (by omega)

theorem maskSum_eq (mask : Nat) :
    maskSum players mask = ratingSum players (placesOf matchSize mask) := by
  have small := ratingSum_le bounded (@placesOf_subset matchSize mask)
  rw [ratingSum, sum_placesOf] at small ⊢
  exact Nat.mod_eq_of_lt (by omega)

theorem totalSum_eq :
    ((List.range matchSize).map (ratingAt players)).sum % 2 ^ 32 =
      ratingSum players allPlaces := by
  have small := ratingSum_le bounded (subset_refl allPlaces)
  exact Nat.mod_eq_of_lt (lt_of_le_of_lt small (by omega))

theorem delta_eq {mask : Nat} :
    absDiff (2 * maskSum players mask % 2 ^ 32)
        (ratingSum players allPlaces) =
      splitDelta players (placesOf matchSize mask) := by
  have both := @ratingSum_add_compl players _
    (@placesOf_subset matchSize mask)
  have small := ratingSum_le bounded (subset_refl allPlaces)
  rw [maskSum_eq bounded, Nat.mod_eq_of_lt (by omega), absDiff, splitDelta]
  split <;> omega

end Sums

section BestSplit

variable {players : List Player} {totalSum : Nat}

def BestSplit.key (split : BestSplit) : Nat ×ₗ Natᵒᵈ :=
  toLex (split.delta, OrderDual.toDual split.aSum)

/-- The split that a mask stands for. -/
def splitOf (players : List Player) (totalSum mask : Nat) : BestSplit where
  mask := mask
  delta := absDiff (2 * maskSum players mask % 2 ^ 32) totalSum
  aSum := maskSum players mask

theorem BestSplit.key_lt {first second : BestSplit} :
    first.key < second.key ↔ first.delta < second.delta ∨
      first.delta = second.delta ∧ second.aSum < first.aSum := by
  rw [Prod.Lex.lt_iff]
  exact Iff.rfl

/-- The loop keeps the least of the splits that it does not skip. -/
theorem bestSplit_eq_leastFrom :
    bestSplit players totalSum =
      leastFrom BestSplit.key { mask := 0, delta := 2 ^ 32 - 1, aSum := 0 }
        (fiveMasks.map (splitOf players totalSum)) := by
  rw [leastFrom, List.foldl_map, fiveMasks, List.foldl_filter, bestSplit]
  congr 1
  funext best mask
  simp only [BestSplit.consider, BestSplit.key_lt, splitOf,
    decide_eq_true_eq, ite_not]

variable (bounded : ∀ player ∈ players, player.skillRating ≤ 3000)
include bounded

theorem key_splitOf (mask : Nat) :
    (splitOf players (ratingSum players allPlaces) mask).key =
      splitKey players (placesOf matchSize mask) := by
  rw [BestSplit.key, splitOf, delta_eq bounded, maskSum_eq bounded, splitKey]

theorem bestSplit_eq :
    ∃ rest, fiveMasks = 31 :: rest ∧
      bestSplit players (ratingSum players allPlaces) =
        leastFrom BestSplit.key
          (splitOf players (ratingSum players allPlaces) 31)
          (rest.map (splitOf players (ratingSum players allPlaces))) := by
  obtain ⟨rest, masks⟩ := fiveMasks_eq
  refine ⟨rest, masks, ?_⟩
  have small := ratingSum_le bounded (subset_refl allPlaces)
  have both := @ratingSum_add_compl players _ (@placesOf_subset matchSize 31)
  rw [bestSplit_eq_leastFrom, masks, List.map_cons, leastFrom_cons, if_pos]
  rw [BestSplit.key_lt, splitOf, delta_eq bounded, splitDelta]
  left
  dsimp only
  omega

theorem bestSplit_best :
    BestPlaces players (placesOf matchSize
      (bestSplit players (ratingSum players allPlaces)).mask) ∧
      ∃ mask, bestSplit players (ratingSum players allPlaces) =
        splitOf players (ratingSum players allPlaces) mask := by
  obtain ⟨rest, masks, best⟩ := bestSplit_eq bounded
  have member := @leastFrom_mem _ _ _ BestSplit.key
    (rest.map (splitOf players (ratingSum players allPlaces)))
    (splitOf players (ratingSum players allPlaces) 31)
  have least := @leastFrom_le _ _ _ BestSplit.key
    (rest.map (splitOf players (ratingSum players allPlaces)))
    (splitOf players (ratingSum players allPlaces) 31)
  have all : splitOf players (ratingSum players allPlaces) 31 ::
      rest.map (splitOf players (ratingSum players allPlaces)) =
      fiveMasks.map (splitOf players (ratingSum players allPlaces)) := by
    rw [masks, List.map_cons]
  rw [← best, all] at member least
  obtain ⟨mask, five, same⟩ := List.mem_map.mp member
  rw [← same] at least ⊢
  refine ⟨⟨(mem_fiveMasks.mp five).2, ?_⟩, mask, rfl⟩
  intro other five'
  have within := (Finset.mem_powersetCard.mp five').1
  have listed : maskOf matchSize other ∈ fiveMasks := by
    rw [mem_fiveMasks, placesOf_maskOf within]
    exact ⟨maskOf_lt, five'⟩
  have below := least _ (List.mem_map_of_mem listed)
  rw [key_splitOf bounded, key_splitOf bounded, placesOf_maskOf within] at below
  exact below

theorem bestSplit_first (best : BestPlaces players (placesOf matchSize 31)) :
    (bestSplit players (ratingSum players allPlaces)).mask = 31 := by
  obtain ⟨rest, masks, same⟩ := bestSplit_eq bounded
  rw [same, leastFrom_eq_first]
  · rfl
  · intro split member
    obtain ⟨mask, listed, rfl⟩ := List.mem_map.mp member
    rw [key_splitOf bounded, key_splitOf bounded]
    have five : mask ∈ fiveMasks := masks ▸ List.mem_cons_of_mem _ listed
    exact best.2 _ (mem_fiveMasks.mp five).2

end BestSplit

section Teams

theorem filterMap_range (players : List Player) (count : Nat) :
    (List.range count).filterMap (fun i => players[i]?) =
      players.take count := by
  induction count with
  | zero => rfl
  | succ count induction =>
      rw [List.range_succ, List.filterMap_append, induction,
        List.take_add_one]
      cases found : players[count]? <;> simp [found]

theorem playersAt_first (players : List Player) :
    playersAt players 31 true = players.take teamSize := by
  have bits : ((List.range matchSize).filter fun i =>
      Nat.testBit 31 i == true) = List.range teamSize := by decide
  rw [playersAt, bits, filterMap_range]

theorem mem_of_playersAt {players : List Player} {mask : Nat} {bit : Bool}
    {player : Player} (member : player ∈ playersAt players mask bit) :
    player ∈ players := by
  obtain ⟨i, _, found⟩ := List.mem_filterMap.mp member
  exact List.mem_of_getElem? found

theorem ratings_playersIn (players : List Player) (places : Finset Nat) :
    ((playersIn players places).map (·.skillRating)).sum =
      (((List.range matchSize).filter (· ∈ places)).map
        (ratingAt players)).sum := by
  rw [playersIn]
  induction (List.range matchSize).filter (· ∈ places) with
  | nil => rfl
  | cons place rest induction =>
      rw [List.map_cons, List.sum_cons, ratingAt, List.filterMap_cons]
      cases players[place]? <;> simp [induction]

theorem sum_playersIn {players : List Player} {places : Finset Nat}
    (within : places ⊆ allPlaces) :
    ((playersIn players places).map (·.skillRating)).sum =
      ratingSum players places := by
  rw [ratings_playersIn, ratingSum, ← List.sum_toFinset _
    (nodup_filter_range _), toFinset_filter_mem within]

variable {players : List Player} (ten : players.length = matchSize)
include ten

theorem ratingSum_allPlaces :
    ratingSum players allPlaces = (players.map (·.skillRating)).sum := by
  have everybody : playersIn players allPlaces = players := by
    rw [playersIn, List.filter_eq_self.mpr, filterMap_range, ← ten,
      List.take_length]
    intro place member
    exact decide_eq_true (Finset.mem_range.mpr (List.mem_range.mp member))
  rw [← sum_playersIn (subset_refl _), everybody]

theorem length_playersIn {places : Finset Nat} (within : places ⊆ allPlaces) :
    (playersIn players places).length = places.card := by
  rw [playersIn, List.length_filterMap_eq_countP, List.countP_eq_length.mpr,
    ← List.toFinset_card_of_nodup (nodup_filter_range _),
    toFinset_filter_mem within]
  intro place member
  have bound : place < players.length := by
    rw [ten]
    exact List.mem_range.mp (List.mem_filter.mp member).1
  simp [bound]

theorem playersIn_perm {places : Finset Nat} :
    (playersIn players places ++
      playersIn players (allPlaces \ places)).Perm players := by
  have both := (List.filter_append_perm (fun place => decide (place ∈ places))
    (List.range matchSize)).filterMap fun place => players[place]?
  rw [List.filterMap_append, filterMap_range, ← ten, List.take_length, ten]
    at both
  have outside : (List.range matchSize).filter
      (fun place => decide (place ∈ allPlaces \ places)) =
      (List.range matchSize).filter fun place => !decide (place ∈ places) := by
    apply List.filter_congr
    intro place member
    have below := List.mem_range.mp member
    simp [below]
  rw [playersIn, playersIn, outside]
  exact both

/-- Whatever the ratings are, the two teams share out the ten players. -/
theorem teams_perm :
    ((exhaustiveBalance players).teamA ++
      (exhaustiveBalance players).teamB).Perm players := by
  obtain ⟨places, teamA, teamB⟩ : ∃ places,
      (exhaustiveBalance players).teamA = playersIn players places ∧
        (exhaustiveBalance players).teamB =
          playersIn players (allPlaces \ places) :=
    ⟨_, playersAt_eq ..⟩
  rw [teamA, teamB]
  exact playersIn_perm ten

variable (bounded : ∀ player ∈ players, player.skillRating ≤ 3000)
include bounded

omit ten in
/-- The teams sit at the best places, and the numbers are theirs. -/
theorem exhaustiveBalance_places :
    ∃ places, BestPlaces players places ∧
      (exhaustiveBalance players).teamA = playersIn players places ∧
      (exhaustiveBalance players).teamB =
        playersIn players (allPlaces \ places) ∧
      (exhaustiveBalance players).teamDelta = splitDelta players places ∧
      (exhaustiveBalance players).totalRating =
        ratingSum players allPlaces := by
  obtain ⟨best, mask, same⟩ := bestSplit_best bounded
  simp only [exhaustiveBalance, totalSum_eq bounded]
  refine ⟨_, best, (playersAt_eq ..).1, (playersAt_eq ..).2, ?_, trivial⟩
  rw [same]
  exact delta_eq bounded

theorem exhaustiveBalance_split :
    (exhaustiveBalance players).teamA.length = teamSize ∧
      (exhaustiveBalance players).teamB.length = teamSize ∧
      ((exhaustiveBalance players).teamA ++
        (exhaustiveBalance players).teamB).Perm players := by
  obtain ⟨places, best, teamA, teamB, _⟩ := exhaustiveBalance_places bounded
  obtain ⟨within, card⟩ := Finset.mem_powersetCard.mp best.1
  rw [teamA, teamB, length_playersIn ten within, card,
    length_playersIn ten Finset.sdiff_subset,
    Finset.card_sdiff_of_subset within, card, Finset.card_range]
  exact ⟨rfl, rfl, playersIn_perm ten⟩

end Teams

end Matchmaker
