import Matchmaker.Outcome.Records
import Matchmaker.Safety.Handover
import Matchmaker.Service.Answers
import Matchmaker.Simulator.Detection

namespace Matchmaker.Simulator

open Concurrent

/-! What the simulation notes of the matches that the service lists. -/

/-- A snapshot as the simulation parses it. -/
def snapshotData (snapshot : PlayerSnapshot) : PlayerData where
  id := some snapshot.id.hyphenated
  waitMs := some snapshot.waitMs
  skillRating := some snapshot.skillRating

def teamData (team : Team) : TeamData where
  players := some (team.players.map snapshotData)

def matchData (record : Match) : MatchData where
  matchId := some record.matchId.hyphenated
  teamA := some (teamData record.teamA)
  teamB := some (teamData record.teamB)

/-- Out of the matches that were formed these are listed. Either the record of
the player says what the only match with the player says, or no listed match
has the player and nothing is noted. -/
inductive Noted (formed listed : List Match) (player : SimPlayer) :
    SimPlayer → Prop
  | matched {record : Match} {snapshot : PlayerSnapshot}
      (member : record ∈ listed) (published : record ∈ formed)
      (inTeam : snapshot ∈ record.snapshots)
      (own : snapshot.id.hyphenated = player.playerId)
      (only : ∀ other ∈ formed, ∀ entry ∈ other.snapshots,
        entry.id = snapshot.id → other = record ∧ entry = snapshot) :
      Noted formed listed player
        (player.note record.matchId.hyphenated (snapshotData snapshot))
  | unlisted (absent : ∀ record ∈ listed, ∀ snapshot ∈ record.snapshots,
        snapshot.id.hyphenated ≠ player.playerId) :
      Noted formed listed player player

section Entries

variable {player : SimPlayer} {entries : List (String × PlayerData)}
  {entry : String × PlayerData} {formed listed : List Match}

/-- The assignments of the loop, one after the other. -/
def entriesOf (listed : List Match) : List (String × PlayerData) :=
  listed.flatMap fun record => record.snapshots.map fun snapshot =>
    (record.matchId.hyphenated, snapshotData snapshot)

def SimPlayer.noteEach (player : SimPlayer)
    (entries : List (String × PlayerData)) : SimPlayer :=
  entries.foldl (fun player entry => player.noteOwn entry.1 entry.2) player

theorem follow_eq (listed : List Match) :
    player.follow (listed.map matchData) =
      player.noteEach (entriesOf listed) := by
  rw [SimPlayer.follow, SimPlayer.noteEach, entriesOf, List.foldl_map,
    List.foldl_flatMap]
  congr 1
  funext player record
  have named : (matchData record).players =
      record.snapshots.map snapshotData := List.map_append.symm
  rw [SimPlayer.noteMatch, named, List.foldl_map, List.foldl_map]
  rfl

theorem noteEach_other
    (absent : ∀ entry ∈ entries, entry.2.pid ≠ player.playerId) :
    player.noteEach entries = player := by
  induction entries with
  | nil => rfl
  | cons entry rest induction =>
      rw [SimPlayer.noteEach, List.foldl_cons, SimPlayer.noteOwn,
        if_neg (absent entry (.head _))]
      exact induction fun later member => absent later (.tail _ member)

theorem noteEach_own
    (distinct : (entries.map fun entry => entry.2.pid).Nodup)
    (member : entry ∈ entries) (own : entry.2.pid = player.playerId) :
    player.noteEach entries = player.note entry.1 entry.2 := by
  induction entries with
  | nil => cases member
  | cons first rest induction =>
      obtain ⟨once, distinct⟩ := List.nodup_cons.mp distinct
      rw [SimPlayer.noteEach, List.foldl_cons, SimPlayer.noteOwn]
      rcases List.mem_cons.mp member with rfl | later
      · rw [if_pos own]
        apply noteEach_other
        intro other among same
        exact once (List.mem_map.mpr ⟨other, among, same.trans own.symm⟩)
      · rw [if_neg]
        · exact induction distinct later
        · intro same
          exact once (List.mem_map.mpr ⟨entry, later, own.trans same.symm⟩)

/-- The identifiers that these matches show. -/
def idsOf (formed : List Match) : List Uuid :=
  formed.flatMap fun record => record.snapshots.map (·.id)

theorem pids_entriesOf : (entriesOf listed).map (fun entry => entry.2.pid) =
    (idsOf listed).map Uuid.hyphenated := by
  rw [entriesOf, idsOf, List.map_flatMap, List.map_flatMap]
  congr 1
  funext record
  rw [List.map_map, List.map_map]
  rfl

theorem nodup_sublist (distinct : (idsOf formed).Nodup)
    (sublist : listed.Sublist formed) : (idsOf listed).Nodup := by
  obtain ⟨each, apart⟩ := List.nodup_flatMap.mp distinct
  exact List.nodup_flatMap.mpr ⟨fun record member =>
    each record (sublist.subset member), apart.sublist sublist⟩

theorem same_of_id (distinct : (idsOf formed).Nodup) {first second : Match}
    (member : first ∈ formed) (member' : second ∈ formed)
    {snapshot entry : PlayerSnapshot} (inside : snapshot ∈ first.snapshots)
    (inside' : entry ∈ second.snapshots) (same : entry.id = snapshot.id) :
    second = first ∧ entry = snapshot := by
  obtain ⟨each, apart⟩ := List.nodup_flatMap.mp distinct
  have records : second = first := by
    by_contra different
    have symmetric : Std.Symm (Function.onFun List.Disjoint
        fun record : Match => record.snapshots.map (·.id)) :=
      ⟨fun _ _ disjoint => disjoint.symm⟩
    exact apart.forall member' member different
      (List.mem_map.mpr ⟨entry, inside', same⟩)
      (List.mem_map.mpr ⟨snapshot, inside, rfl⟩)
  subst records
  exact ⟨rfl, List.inj_on_of_nodup_map (each second member) inside' inside
    same⟩

/-- The loop goes over the records in the order of the answer. As the
identifiers are different, a record is written once at most. -/
theorem follow_noted (distinct : (idsOf formed).Nodup)
    (sublist : listed.Sublist formed) (player : SimPlayer) :
    Noted formed listed player (player.follow (listed.map matchData)) := by
  rw [follow_eq]
  by_cases found : ∃ record ∈ listed, ∃ snapshot ∈ record.snapshots,
      snapshot.id.hyphenated = player.playerId
  · obtain ⟨record, member, snapshot, inTeam, own⟩ := found
    have once : ((entriesOf listed).map fun entry => entry.2.pid).Nodup := by
      rw [pids_entriesOf]
      exact (nodup_sublist distinct sublist).map Uuid.hyphenated_injective
    have among : (record.matchId.hyphenated, snapshotData snapshot) ∈
        entriesOf listed :=
      List.mem_flatMap.mpr ⟨record, member,
        List.mem_map.mpr ⟨snapshot, inTeam, rfl⟩⟩
    have kept := sublist.subset member
    rw [noteEach_own once among own]
    apply Noted.matched member kept inTeam own
    intro other published entry inside same
    exact same_of_id distinct kept published inTeam inside same
  · rw [noteEach_other]
    · apply Noted.unlisted
      intro record member snapshot inTeam own
      exact found ⟨record, member, snapshot, inTeam, own⟩
    · intro entry among own
      obtain ⟨record, member, listed⟩ := List.mem_flatMap.mp among
      obtain ⟨snapshot, inTeam, rfl⟩ := List.mem_map.mp listed
      exact found ⟨record, member, snapshot, inTeam, own⟩

end Entries

/-- No identifier is in two published records, where none is reused. -/
theorem nodup_published_ids {config : Config} {clock : Clock}
    {system : System}
    (run : Run config clock (.both .noResets .distinctIds) system) :
    (idsOf (publishedRecords system.trace)).Nodup := by
  have own := Run.publishesOwn (Run.keptClaims_of_noResets (Run.left run))
  have ids : idsOf (publishedRecords system.trace) =
      (published system.trace).map (·.id) := by
    rw [idsOf, publishedRecords, List.flatMap_map, published,
      List.map_flatMap]
    apply List.flatMap_congr
    intro publication member
    have recorded := Run.recorded run member
    rw [Match.snapshots, Publication.players, List.map_append,
      List.map_append, recorded.recordA, recorded.recordB]
  have stored : ∀ player ∈ published system.trace,
      player ∈ Matchmaker.stored system.trace := by
    intro player member
    obtain ⟨publication, among, inTeams⟩ := List.mem_flatMap.mp member
    exact Run.stored_of_transfer run (own publication among player inTeams)
  rw [ids]
  apply List.Nodup.map_on ?_ (Run.published_nodup run own)
  intro player member other member' same
  exact Run.player_unique (Run.right run) (stored player member)
    (stored other member') same

/-- Where no identifier is reused and no live claim is reset, the simulation
notes the truth: the records of the players that the answer of `GET /matches`
names are those of the only match that was ever published with the player, and
the others stay as they were. -/
theorem simulation_truthful {config : Config} {clock : Clock}
    {watched : ReadSystem}
    (run : ReadRun config clock (.both .noResets .distinctIds) watched)
    {limit : Option Nat} {watch : Nat} {opened : System}
    {response : MatchesResponse}
    (answered : watched.watches[watch]? =
      some ⟨.recent limit, opened, .pure (.recent response)⟩)
    {players : List SimPlayer}
    (distinct : (players.map (·.playerId)).Nodup) :
    List.Forall₂
      (Noted (publishedRecords watched.state.trace) response.matchList)
      players (collectMatchResults
        (fun _ => some (some (response.matchList.map matchData)))
        (playerMap players) players) := by
  obtain ⟨reached, closed, before, after, recent⟩ :=
    ReadLater.reported .start run (Nat.zero_le _) answered
  obtain ⟨seen, _, onwards, shown, _⟩ := recent
  have ids := nodup_published_ids (Later.run (Later.run reached before) after)
  have sublist : response.matchList.Sublist
      (publishedRecords watched.state.trace) := by
    rw [shown]
    exact (List.take_sublist _ _).trans
      (onwards.trans after).grows.records.sublist
  have noted : collectMatchResults
      (fun _ => some (some (response.matchList.map matchData)))
      (playerMap players) players =
      players.map (·.follow (response.matchList.map matchData)) :=
    noteMatches_eq (leads_playerMap distinct) _
  rw [noted, List.forall₂_map_right_iff, List.forall₂_same]
  intro player _
  exact follow_noted ids sublist player

/-- The players of a simulation that has drawn these identifiers. -/
def drawn (ids : List Uuid) : List SimPlayer :=
  ids.map fun id => .new id.hyphenated

theorem nodup_drawn {ids : List Uuid} (distinct : ids.Nodup) :
    ((drawn ids).map (·.playerId)).Nodup := by
  rw [drawn, List.map_map]
  exact distinct.map Uuid.hyphenated_injective

set_option maxRecDepth 100000 in
/-- One of the players of a match is followed, and one who has not come. -/
theorem simulation_truthful_match :
    ∃ (watched : ReadSystem) (response : MatchesResponse),
      ReadRun .default ⟨0, 1000⟩ (.both .noResets .distinctIds) watched ∧
      response.matchList.length = 1 ∧
      List.Forall₂
        (Noted (publishedRecords watched.state.trace) response.matchList)
        (drawn [10, 11]) (collectMatchResults
          (fun _ => some (some (response.matchList.map matchData)))
          (playerMap (drawn [10, 11])) (drawn [10, 11])) := by
  obtain ⟨watched, ran, check⟩ : ∃ watched,
      ReadSystem.play .default ⟨0, 1000⟩ (.both .noResets .distinctIds)
        ⟨System.new ⟨0, 1000⟩, []⟩ ((arrivals 10 1500 ++
          .start (.attemptMatch 1) :: turns 10 147).map .move ++
          .visit (.recent none) :: looks 0 2) = some watched ∧
        ((watched.listed? 0).any fun response =>
          response.matchList.length = 1) = true := by
    apply (Option.any_eq_true _ _).mp
    decide +kernel
  obtain ⟨response, listed, length⟩ := (Option.any_eq_true _ _).mp check
  obtain ⟨opened, found⟩ := ReadSystem.exists_of_listed listed
  have run := ReadLater.played ran
  exact ⟨watched, response, run, of_decide_eq_true length,
    simulation_truthful run found (nodup_drawn (by decide))⟩

end Matchmaker.Simulator
