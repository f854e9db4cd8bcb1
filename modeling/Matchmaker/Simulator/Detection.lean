import Matchmaker.Simulator.Correctness

namespace Matchmaker.Simulator

/-! Which double bookings the simulation reports. -/

variable {players : List SimPlayer} {formed : List MatchData}

/-- The match names a player with this identifier. -/
def MatchData.Names (data : MatchData) (id : String) : Prop :=
  id ∈ data.players.map PlayerData.pid

instance (data : MatchData) (id : String) : Decidable (data.Names id) :=
  inferInstanceAs (Decidable (id ∈ _))

/-- Some simulated player is named by two matches. -/
def DoubleBooked (players : List SimPlayer) (formed : List MatchData) : Prop :=
  ∃ player ∈ players, ∃ first ∈ formed, ∃ second ∈ formed,
    first ≠ second ∧ first.Names player.playerId ∧
      second.Names player.playerId

instance : Decidable (DoubleBooked players formed) :=
  inferInstanceAs (Decidable (∃ player ∈ players, _))

/-- The assignments for an entry, if it is about this player. -/
def SimPlayer.noteOwn (matchId : String) (player : SimPlayer)
    (entry : PlayerData) : SimPlayer :=
  if entry.pid = player.playerId then player.note matchId entry else player

def SimPlayer.noteMatch (player : SimPlayer) (data : MatchData) : SimPlayer :=
  data.players.foldl (SimPlayer.noteOwn data.name) player

/-- What the loop makes of one record. -/
def SimPlayer.follow (player : SimPlayer) (formed : List MatchData) :
    SimPlayer :=
  formed.foldl SimPlayer.noteMatch player

section Positions

variable {positions : PlayerMap} {id : String} {position : Nat}

/-- Every reference of the dictionary leads to the record of its key. -/
def Leads (positions : PlayerMap) (players : List SimPlayer) : Prop :=
  ∀ id position, positions.lookup id = some position ↔
    (players.map (·.playerId))[position]? = some id

theorem lookup_entries {entries : List (SimPlayer × Nat)}
    (distinct : (entries.map (·.1.playerId)).Nodup) :
    (entries.foldl (fun positions entry =>
        positions.insert entry.1.playerId entry.2) positions).lookup id =
      some position ↔
      (∃ entry ∈ entries, entry.1.playerId = id ∧ entry.2 = position) ∨
      id ∉ entries.map (·.1.playerId) ∧
        positions.lookup id = some position := by
  induction entries generalizing positions with
  | nil => simp
  | cons entry rest induction =>
      obtain ⟨once, distinct⟩ := List.nodup_cons.mp distinct
      rw [List.foldl_cons, induction distinct, List.map_cons, List.mem_cons,
        List.exists_mem_cons_iff]
      by_cases same : id = entry.1.playerId
      · subst same
        have nowhere : ¬ ∃ other ∈ rest,
            other.1.playerId = entry.1.playerId ∧ other.2 = position := by
          intro found
          obtain ⟨other, member, again, _⟩ := found
          exact once (List.mem_map.mpr ⟨other, member, again⟩)
        simp [AList.lookup_insert, once, nowhere]
      · rw [AList.lookup_insert_ne same]
        simp [same, Ne.symm same]

theorem leads_playerMap (distinct : (players.map (·.playerId)).Nodup) :
    Leads (playerMap players) players := by
  intro id position
  have ids : players.zipIdx.map (·.1.playerId) =
      players.map (·.playerId) := by
    conv_rhs => rw [← List.zipIdx_map_fst 0 players, List.map_map]
    rfl
  rw [playerMap, lookup_entries (ids ▸ distinct), List.getElem?_map]
  simp [List.mem_zipIdx_iff_getElem?, and_comm]

variable (leads : Leads positions players)
include leads

theorem notePlayer_eq (matchId : String) (entry : PlayerData) :
    notePlayer positions matchId players entry =
      players.map (SimPlayer.noteOwn matchId · entry) := by
  apply List.ext_getElem?
  intro here
  have own := leads entry.pid here
  rw [notePlayer, List.getElem?_map]
  cases found : positions.lookup entry.pid with
  | none =>
      cases stored : players[here]? with
      | none => rfl
      | some player =>
          have different : entry.pid ≠ player.playerId := by
            intro same
            rw [found, List.getElem?_map, stored, same] at own
            cases own.mpr rfl
          rw [Option.map_some, SimPlayer.noteOwn, if_neg different]
  | some position =>
      rw [List.getElem?_modify]
      cases stored : players[here]? with
      | none => rfl
      | some player =>
          rw [found, List.getElem?_map, stored] at own
          simp only [Option.map_some, Option.some.injEq] at own
          simp only [Option.map_eq_map, Option.map_some, SimPlayer.noteOwn,
            own, eq_comm]

theorem noteMatch_eq (data : MatchData) :
    noteMatch positions players data = players.map (·.noteMatch data) := by
  unfold noteMatch SimPlayer.noteMatch
  induction data.players generalizing players with
  | nil => simp
  | cons entry rest induction =>
      have kept := @ids_notePlayer positions players data.name entry
      rw [List.foldl_cons, induction (by rw [Leads, kept]; exact leads),
        notePlayer_eq leads, List.map_map]
      rfl

/-- The loop, which goes through the matches and finds the records, does to
each record what its own entries say. -/
theorem noteMatches_eq (formed : List MatchData) :
    noteMatches positions players formed =
      players.map (·.follow formed) := by
  unfold noteMatches SimPlayer.follow
  induction formed generalizing players with
  | nil => simp
  | cons data rest induction =>
      have kept := @ids_noteMatch positions players data
      rw [List.foldl_cons, induction (by rw [Leads, kept]; exact leads),
        noteMatch_eq leads, List.map_map]
      rfl

end Positions

/-- The report on what the loop has noted of these matches. -/
def report (players : List SimPlayer) (formed : List MatchData) :
    CorrectnessReport :=
  validateCorrectness (noteMatches (playerMap players) players formed)

/-- A report without violations is right exactly when nobody is booked twice:
it never shows a violation. -/
theorem report_detects_iff
    (distinct : (players.map (·.playerId)).Nodup) :
    ((report players formed).violations = 0 ↔ ¬ DoubleBooked players formed) ↔
      ¬ DoubleBooked players formed := by
  -- one match is left in each record, so no group can have two
  have nothing : (report players formed).violations = 0 := by
    rw [report, violations_eq_zero_iff, ids_noteMatches]
    exact distinct
  simp only [nothing, true_iff]

def idText (i : Nat) : String :=
  "00000000-0000-4000-8000-0000000000" ++ toString (10 + i)

/-- Nineteen players, the tenth of whom is in both matches. -/
def simulated : List SimPlayer :=
  (List.range 19).map fun i => .new (idText i)

def teamOf (first : Nat) : TeamData where
  players := some ((List.range 5).map fun i =>
    { id := some (idText (first + i)), waitMs := some 100,
      skillRating := some 1500 })

def bookedTwice : List MatchData :=
  [{ matchId := some (idText 80), teamA := some (teamOf 0)
     teamB := some (teamOf 5) },
   { matchId := some (idText 81), teamA := some (teamOf 9)
     teamB := some (teamOf 14) }]

theorem report_detects_iff_clean :
    ((report simulated (bookedTwice.take 1)).violations = 0 ↔
        ¬ DoubleBooked simulated (bookedTwice.take 1)) ↔
      ¬ DoubleBooked simulated (bookedTwice.take 1) :=
  report_detects_iff (by decide +kernel)

set_option maxRecDepth 100000 in
/-- The second match hides the first. -/
theorem exists_unreported :
    ∃ players formed, (players.map (·.playerId)).Nodup ∧
      (formed.map MatchData.name).Nodup ∧
      DoubleBooked players formed ∧
      (report players formed).violations = 0 :=
  ⟨simulated, bookedTwice, by decide +kernel, by decide +kernel,
    by decide +kernel, by decide +kernel⟩

end Matchmaker.Simulator
