import Mathlib.Data.List.AList

namespace Matchmaker.Simulator

/-! How the load simulation notes what `GET /matches` answers. -/

inductive FinalStatus
  | pending
  | queued
  | matched
  | timeout
  | error
deriving DecidableEq

structure SimPlayer where
  playerId : String
  finalStatus : FinalStatus
  matchId : Option String
  matchWaitMs : Option Int
  matchSkillRating : Option Int
deriving DecidableEq

def SimPlayer.new (playerId : String) : SimPlayer where
  playerId := playerId
  finalStatus := .pending
  matchId := none
  matchWaitMs := none
  matchSkillRating := none

/-! The answer as parsed; a key that is missing is `none`. -/

structure PlayerData where
  id : Option String
  waitMs : Option Int
  skillRating : Option Int
deriving DecidableEq

structure TeamData where
  players : Option (List PlayerData)
deriving DecidableEq

structure MatchData where
  matchId : Option String
  teamA : Option TeamData
  teamB : Option TeamData
deriving DecidableEq

/-- `player_data.get("id", "")`. -/
def PlayerData.pid (data : PlayerData) : String :=
  data.id.getD ""

/-- `match.get("match_id", "unknown")`. -/
def MatchData.name (data : MatchData) : String :=
  data.matchId.getD "unknown"

/-- `match.get("team_a", {}).get("players", [])`, for either team. -/
def teamPlayers (team : Option TeamData) : List PlayerData :=
  (team.bind (·.players)).getD []

def MatchData.players (data : MatchData) : List PlayerData :=
  teamPlayers data.teamA ++ teamPlayers data.teamB

/-- Where the record of a player stands in the list of all records. -/
abbrev PlayerMap := AList fun _ : String => Nat

/-- Of two players with one identifier the later is kept. -/
def playerMap (players : List SimPlayer) : PlayerMap :=
  players.zipIdx.foldl
    (fun positions entry => positions.insert entry.1.playerId entry.2) ∅

def SimPlayer.note (player : SimPlayer) (matchId : String)
    (data : PlayerData) : SimPlayer :=
  { player with
    finalStatus := .matched
    matchId := some matchId
    matchWaitMs := data.waitMs
    matchSkillRating := data.skillRating }

def notePlayer (positions : PlayerMap) (matchId : String)
    (players : List SimPlayer) (data : PlayerData) : List SimPlayer :=
  match positions.lookup data.pid with
  | none => players
  | some position =>
      players.modify position fun player => player.note matchId data

def noteMatch (positions : PlayerMap) (players : List SimPlayer)
    (data : MatchData) : List SimPlayer :=
  data.players.foldl (notePlayer positions data.name) players

def noteMatches (positions : PlayerMap) (players : List SimPlayer)
    (formed : List MatchData) : List SimPlayer :=
  formed.foldl (noteMatch positions) players

/-- `fetch` answers the request with this limit, if it succeeds; the key
`matches` may be missing in the answer. -/
def collectMatchResults (fetch : Nat → Option (Option (List MatchData)))
    (positions : PlayerMap) (players : List SimPlayer) : List SimPlayer :=
  let limit := max (positions.entries.length / 10) 20
  match fetch limit with
  | none => players
  | some formed => noteMatches positions players (formed.getD [])

section Identifiers

variable {positions : PlayerMap} {players : List SimPlayer}

theorem map_modify {f : α → α} {g : α → β} (kept : ∀ item, g (f item) = g item)
    (items : List α) (position : Nat) :
    (items.modify position f).map g = items.map g := by
  induction items generalizing position with
  | nil => rw [List.modify_nil]
  | cons first rest induction =>
      cases position with
      | zero => rw [List.modify_zero_cons, List.map_cons, kept, List.map_cons]
      | succ position =>
          rw [List.modify_succ_cons, List.map_cons, induction, List.map_cons]

theorem ids_notePlayer (matchId : String) (data : PlayerData) :
    (notePlayer positions matchId players data).map (·.playerId) =
      players.map (·.playerId) := by
  rw [notePlayer]
  split
  · rfl
  · refine map_modify ?_ players _
    intro player
    rfl

theorem ids_noteMatch (data : MatchData) :
    (noteMatch positions players data).map (·.playerId) =
      players.map (·.playerId) := by
  rw [noteMatch]
  induction data.players generalizing players with
  | nil => rfl
  | cons first rest induction =>
      rw [List.foldl_cons, induction, ids_notePlayer]

theorem ids_noteMatches (formed : List MatchData) :
    (noteMatches positions players formed).map (·.playerId) =
      players.map (·.playerId) := by
  rw [noteMatches]
  induction formed generalizing players with
  | nil => rfl
  | cons first rest induction =>
      rw [List.foldl_cons, induction, ids_noteMatch]

end Identifiers

end Matchmaker.Simulator
