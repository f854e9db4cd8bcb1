import Mathlib.Data.Finset.Card
import Matchmaker.Simulator.Collecting
import Matchmaker.Simulator.Grouping

namespace Matchmaker.Simulator

/-! The report of the load simulation on its own records. -/

structure CorrectnessReport where
  duplicatePlayerIds : List String
  duplicateMatchAssignments : List String
  playersInMultipleMatches : List String
  totalUniquePlayersObserved : Nat
  totalUniqueMatchesObserved : Nat
  violations : Nat
deriving DecidableEq

def CorrectnessReport.isCorrect (report : CorrectnessReport) : Bool :=
  report.violations = 0

/-- `seen_ids` and `duplicate_player_ids`. -/
def seeId (seen : Finset String × List String) (player : SimPlayer) :
    Finset String × List String :=
  (insert player.playerId seen.1,
    if player.playerId ∈ seen.1 then seen.2 ++ [player.playerId] else seen.2)

/-- `p.final_status == "matched" and p.match_id`: an empty text is false. -/
def SimPlayer.assignment (player : SimPlayer) : Option String :=
  if player.finalStatus = .matched then player.matchId.filter (· ≠ "")
  else none

/-- `player_to_matches` and `match_ids`. -/
def assign (assigned : List (String × List String) × Finset String)
    (player : SimPlayer) : List (String × List String) × Finset String :=
  match player.assignment with
  | none => assigned
  | some matchId => (Grouping.append assigned.1 player.playerId matchId,
      insert matchId assigned.2)

/-- `players_in_multiple_matches` and `duplicate_match_assignments`. -/
def reportMultiple (reported : List String × List String)
    (group : String × List String) : List String × List String :=
  if 1 < group.2.length then (reported.1 ++ [group.1], reported.2 ++ group.2)
  else reported

def validateCorrectness (players : List SimPlayer) : CorrectnessReport :=
  let seen := players.foldl seeId (∅, [])
  let assigned := players.foldl assign ([], ∅)
  let reported := assigned.1.foldl reportMultiple ([], [])
  { duplicatePlayerIds := seen.2
    duplicateMatchAssignments := reported.2
    playersInMultipleMatches := reported.1
    totalUniquePlayersObserved := seen.1.card
    totalUniqueMatchesObserved := assigned.2.card
    violations := seen.2.length + reported.1.length }

section Report

variable {players : List SimPlayer}

theorem seeId_nil {seen : Finset String} {duplicates : List String} :
    (players.foldl seeId (seen, duplicates)).2 = [] ↔
      duplicates = [] ∧ (players.map (·.playerId)).Nodup ∧
        ∀ id ∈ players.map (·.playerId), id ∉ seen := by
  induction players generalizing seen duplicates with
  | nil => simp
  | cons player rest induction =>
      rw [List.foldl_cons, seeId, induction]
      by_cases member : player.playerId ∈ seen
      · simp [member]
      · simp only [member, ↓reduceIte, List.map_cons, List.nodup_cons,
          List.forall_mem_cons, Finset.mem_insert, not_or, not_false_eq_true,
          true_and]
        refine and_congr_right fun _ => ⟨?_, ?_⟩
        · intro found
          obtain ⟨distinct, fresh⟩ := found
          refine ⟨⟨fun again => (fresh _ again).1 rfl, distinct⟩, ?_⟩
          exact fun id later => (fresh id later).2
        · intro found
          obtain ⟨⟨once, distinct⟩, fresh⟩ := found
          refine ⟨distinct, fun id later => ⟨?_, fresh id later⟩⟩
          rintro rfl
          exact once later

/-- What the second loop collects. -/
def assignments (players : List SimPlayer) : List (String × String) :=
  players.filterMap fun player =>
    player.assignment.map fun matchId => (player.playerId, matchId)

theorem groups_assign {groups : List (String × List String)}
    {matchIds : Finset String} {pairs : List (String × String)}
    (held : Grouping.Groups pairs groups) :
    Grouping.Groups (pairs ++ assignments players)
      (players.foldl assign (groups, matchIds)).1 := by
  induction players generalizing groups matchIds pairs with
  | nil =>
      rw [assignments, List.filterMap_nil, List.append_nil]
      exact held
  | cons player rest induction =>
      rw [List.foldl_cons, assign, assignments, List.filterMap_cons]
      cases player.assignment with
      | none => exact induction held
      | some matchId =>
          have longer := @induction _ (insert matchId matchIds) _
            (held.append player.playerId matchId)
          rw [List.append_assoc] at longer
          exact longer

theorem nodup_assignments (distinct : (players.map (·.playerId)).Nodup) :
    ((assignments players).map (·.1)).Nodup := by
  refine distinct.sublist ?_
  rw [assignments]
  induction players with
  | nil => exact .refl _
  | cons player rest induction =>
      rw [List.map_cons] at distinct
      have later := induction (List.nodup_cons.mp distinct).2
      rw [List.filterMap_cons, List.map_cons]
      cases player.assignment with
      | none => exact later.cons _
      | some matchId => exact later.cons_cons _

theorem reportMultiple_nil {groups : List (String × List String)}
    {reported : List String × List String}
    (single : ∀ group ∈ groups, group.2.length ≤ 1) :
    groups.foldl reportMultiple reported = reported := by
  induction groups with
  | nil => rfl
  | cons group rest induction =>
      rw [List.foldl_cons, reportMultiple,
        if_neg (Nat.not_lt.mpr (single group (List.mem_cons_self ..)))]
      exact induction fun other member =>
        single other (List.mem_cons_of_mem _ member)

/-- The report looks at identifiers only: whatever the records say about
matches, it finds no violation when they are distinct. -/
theorem violations_eq_zero_iff :
    (validateCorrectness players).violations = 0 ↔
      (players.map (·.playerId)).Nodup := by
  have ids := @seeId_nil players ∅ []
  rw [validateCorrectness, Nat.add_eq_zero_iff, List.length_eq_zero_iff,
    List.length_eq_zero_iff, ids]
  constructor
  · exact fun found => found.1.2.1
  · intro distinct
    refine ⟨⟨rfl, distinct, fun _ _ => Finset.notMem_empty _⟩, ?_⟩
    have held := @groups_assign players [] ∅ [] .nil
    rw [reportMultiple_nil]
    rintro ⟨id, matchIds⟩ member
    exact held.single (nodup_assignments distinct) member

end Report

end Matchmaker.Simulator
