import Matchmaker.Outcome.Uncontended
import Matchmaker.Sequential.Rounds
import Matchmaker.Outcome.Widening

namespace Matchmaker

open Concurrent

/-! A pool whose players all suit each other is matched down to the last ten. -/

def Match.ids (record : Match) : List Uuid :=
  (record.teamA.players ++ record.teamB.players).map (·.id)

def MatchAttemptResult.ids : MatchAttemptResult → List Uuid
  | .success record => record.ids
  | _ => []

/-- The players that the answers put into matches. -/
def matchedIds
    (log : List (Program.Served semantics Unit MatchAttemptResult)) :
    List Uuid :=
  log.flatMap (·.answer.ids)

/-- What any two waiting players may differ by. -/
def Core.Compatible (core : Core) (gap : Nat) : Prop :=
  ∀ player ∈ core.waiting, ∀ other ∈ core.waiting,
    player.skillRating ≤ other.skillRating + gap

/-- What a worker has made of the pool by these calls. -/
structure Drained (core core' : Core)
    (log : List (Program.Served semantics Unit MatchAttemptResult)) :
    Prop where
  formed : ∀ served ∈ log.take (core.waiting.length / matchSize),
    ∃ record, served.answer = .success record ∧ record.ids.length = matchSize
  later : ∀ served ∈ log.drop (core.waiting.length / matchSize),
    if core.waiting.length % matchSize = 0 then served.answer = .poolEmpty
    else ∃ found window seedMmr stage, served.answer =
      .insufficientCandidates found window seedMmr stage
  disjoint : (matchedIds log).Nodup
  partition : (matchedIds log ++ core'.waiting.map (·.id)).Perm
    (core.waiting.map (·.id))
  total : core.waiting.length / matchSize ≤ log.length →
    (matchedIds log).length =
        matchSize * (core.waiting.length / matchSize) ∧
      core'.waiting.length = core.waiting.length % matchSize
  left : ∀ player ∈ core'.waiting, player ∈ core.waiting ∧
    core'.primary.lookup player.id = some player ∧
    core'.index[player.ratingKey]? = some player

variable {passes : Clock → Clock → Prop} {ctx : WorkerContext}
  {state state' : WorkerState} {core core' : Core} {bounds : Nat × Nat}
  {answer : MatchAttemptResult}
  {log : List (Program.Served semantics Unit MatchAttemptResult)}

theorem Core.found_of_waiting (consistent : Consistent core) {player : Player}
    (member : player ∈ core.waiting) :
    core.primary.lookup player.id = some player := by
  obtain ⟨⟨id, found⟩, _⟩ := Core.mem_waiting.mp member
  rw [consistent.primary found]
  exact found

theorem Core.indexed_of_waiting (consistent : Consistent core)
    {player : Player} (member : player ∈ core.waiting) :
    core.index[player.ratingKey]? = some player := by
  have found := Core.found_of_waiting consistent member
  have same := consistent.synchronised player.skillRating player.id
  rw [found] at same
  exact same.trans (by simp [Option.filter])

section Compatible

variable (valid : ctx.config.Valid) (consistent : Consistent core)
  (compatible : core.Compatible ctx.config.relaxationStage1Delta)
include valid consistent compatible

theorem window_compatible {seed : Player} (waiting : seed ∈ core.waiting)
    (scans : core.Scans passes ctx seed bounds) :
    core.window bounds = core.waiting := by
  obtain ⟨clock, _, rfl⟩ := scans
  rw [Core.window_eq]
  apply List.filter_eq_self.mpr
  intro player member
  have above := compatible player member seed waiting
  have below := compatible seed waiting player member
  have bounded := consistent.bounded (Core.found_of_waiting consistent member)
  have wide := (valid.staged.windowAfter_within
    ((core.timed clock).clock.instant.msSince seed.joinTimestamp)).1
  simp only [Player.outside, Core.scanned, boundsWithin, maxSkillRating,
    Bool.not_not, Bool.and_eq_true] at *
  refine ⟨decide_eq_true ?_, decide_eq_true ?_⟩ <;> omega

theorem drain_cases
    (attempts : core.Attempts passes ctx state (answer, state') core') :
    (core.waiting.length < matchSize ∧ core.SamePool core' ∧
      if core.waiting.length = 0 then answer = .poolEmpty
      else ∃ found window seedMmr stage, answer =
        .insufficientCandidates found window seedMmr stage) ∨
    ∃ record ten, answer = .success record ∧ ten.length = matchSize ∧
      record.ids.Perm (ten.map Player.id) ∧
      (ten ++ core'.waiting).Perm core.waiting := by
  cases attempts with
  | poolEmpty nobody drifts =>
      rw [nobody]
      exact .inl ⟨by decide, .of_drifts drifts, rfl⟩
  | insufficient selects scans few staged drifts =>
      have same := window_compatible valid consistent compatible
        selects.waiting scans
      have inhabited : core.waiting.length ≠ 0 := by
        intro none
        have member := selects.waiting
        rw [List.length_eq_zero_iff.mp none] at member
        cases member
      rw [same] at few
      refine .inl ⟨few, ?_, ?_⟩
      · have counted : core.SamePool ((core.count .workerCyclesTotal).count
            .matchAttemptsInsufficient) := ⟨rfl, rfl, rfl⟩
        exact counted.trans (.of_drifts drifts)
      · rw [if_neg inhabited]
        exact ⟨_, _, _, _, rfl⟩
  | @success seed bounds moments _ selects scans enough after drifts =>
      have ten := Core.length_chosen consistent.toWellKeyed
        consistent.synchronised enough
      refine .inr ⟨_, core.chosen bounds, rfl, ten, ?_, ?_⟩
      · obtain ⟨_, _, perm⟩ := exhaustiveBalance_split ten
          fun player member => consistent.bounded
            (Core.chosen_found consistent member)
        rw [Match.ids, Moments.record_ids]
        exact perm.map _
      · rw [(Core.SamePool.of_drifts drifts).waiting]
        have counted : Consistent (core.count .workerCyclesTotal) :=
          @Core.SamePool.consistent core _ ⟨rfl, rfl, rfl⟩ consistent
        exact Core.waiting_form_perm counted
          (fun player member => Core.chosen_found consistent member)
          (Core.nodup_chosen consistent.toWellKeyed)
          fun player member => Core.chosen_waiting consistent member

end Compatible

theorem Core.nodup_waiting_ids (keyed : WellKeyed core) :
    (core.waiting.map (·.id)).Nodup := by
  refine List.Nodup.map_on ?_ (Core.nodup_waiting keyed)
  intro player member other member' same
  exact Core.eq_of_id keyed (Core.mem_waiting.mp member).1
    (Core.mem_waiting.mp member').1 same

theorem Drained.success {final : Core} {record : Match} {ten : List Player}
    (keyed : WellKeyed core) (size : ten.length = matchSize)
    (ids : record.ids.Perm (ten.map Player.id))
    (perm : (ten ++ core'.waiting).Perm core.waiting)
    (drained : Drained core' final log) :
    Drained core final (⟨(), .success record, core'⟩ :: log) := by
  have lengths := perm.length_eq
  rw [List.length_append, size] at lengths
  have tens : core.waiting.length / matchSize =
      core'.waiting.length / matchSize + 1 := by
    rw [← lengths]
    simp only [matchSize]
    omega
  have rest : core.waiting.length % matchSize =
      core'.waiting.length % matchSize := by
    rw [← lengths]
    simp only [matchSize]
    omega
  have ten : record.ids.length = matchSize := by
    rw [ids.length_eq, List.length_map, size]
  have partition : (matchedIds (⟨(), .success record, core'⟩ :: log) ++
      final.waiting.map (·.id)).Perm (core.waiting.map (·.id)) := by
    rw [matchedIds, List.flatMap_cons, List.append_assoc]
    apply (ids.append drained.partition).trans
    rw [← List.map_append]
    exact perm.map _
  refine ⟨?_, ?_, ?_, partition, ?_, ?_⟩
  · rw [tens, List.take_succ_cons]
    rintro served (_ | ⟨_, member⟩)
    · exact ⟨record, rfl, ten⟩
    · exact drained.formed served member
  · rw [tens, rest, List.drop_succ_cons]
    exact drained.later
  · exact (List.nodup_append.mp
      (partition.nodup_iff.mpr (Core.nodup_waiting_ids keyed))).1
  · rw [tens, rest]
    intro long
    obtain ⟨total, left⟩ := drained.total (Nat.le_of_succ_le_succ long)
    rw [matchedIds, List.flatMap_cons, List.length_append]
    refine ⟨?_, left⟩
    rw [← matchedIds, total, MatchAttemptResult.ids, ten, Nat.mul_succ,
      Nat.add_comm]
  · intro player member
    obtain ⟨waiting, stored⟩ := drained.left player member
    exact ⟨perm.mem_iff.mp (List.mem_append_right _ waiting), stored⟩

theorem Drained.failed {final : Core} (few : core.waiting.length < matchSize)
    (same : core.SamePool core')
    (failed : if core.waiting.length = 0 then answer = .poolEmpty
      else ∃ found window seedMmr stage, answer =
        .insufficientCandidates found window seedMmr stage)
    (drained : Drained core' final log) :
    Drained core final (⟨(), answer, core'⟩ :: log) := by
  have nothing : answer.ids = [] := by
    split at failed
    · rw [failed]
      rfl
    · obtain ⟨_, _, _, _, rfl⟩ := failed
      rfl
  have none : core.waiting.length / matchSize = 0 :=
    Nat.div_eq_of_lt few
  have all : core.waiting.length % matchSize = core.waiting.length :=
    Nat.mod_eq_of_lt few
  obtain ⟨formed, later, disjoint, partition, total, left⟩ := drained
  rw [same.waiting] at formed later partition total left
  rw [none] at formed later total
  refine ⟨?_, ?_, ?_, ?_, ?_, left⟩
  · rw [none]
    nofun
  · rw [none, List.drop_zero, all]
    rw [List.drop_zero, all] at later
    rintro served (_ | ⟨_, member⟩)
    · exact failed
    · exact later served member
  · rw [matchedIds, List.flatMap_cons, nothing]
    exact disjoint
  · rw [matchedIds, List.flatMap_cons, nothing]
    exact partition
  · rw [none, matchedIds, List.flatMap_cons, nothing]
    exact fun _ => total (Nat.zero_le _)

/-- A worker that calls again and again matches ten players at a time until
fewer than ten are left. -/
theorem rounds_drain [IsPreorder Clock passes] {env : String → Option String}
    {final : Core} {last : WorkerState}
    (accepted : Config.fromEnv env = .ok ctx.config)
    (consistent : Consistent core)
    (compatible : core.Compatible ctx.config.relaxationStage1Delta)
    (rounds : Rounds passes ctx state core log last final) :
    Drained core final log := by
  have valid := Config.fromEnv_valid accepted
  refine Rounds.induct (motive := fun _ core log _ final =>
    core.Compatible ctx.config.relaxationStage1Delta →
      Drained core final log) ?_ ?_ consistent rounds compatible
  · intro _ core consistent _
    refine ⟨by simp, by simp, List.nodup_nil, .refl _, ?_, ?_⟩
    · intro short
      have none : core.waiting.length / matchSize = 0 := Nat.le_zero.mp short
      have few : core.waiting.length < matchSize :=
        (Nat.div_eq_zero_iff_lt (by decide)).mp none
      exact ⟨by rw [none]; rfl, (Nat.mod_eq_of_lt few).symm⟩
    · exact fun player member => ⟨member,
        Core.found_of_waiting consistent member,
        Core.indexed_of_waiting consistent member⟩
  · intro state core answer state' core' log _ final consistent attempts
      induction compatible
    rcases drain_cases valid consistent compatible attempts with
      ⟨few, same, failed⟩ | ⟨record, ten, rfl, size, ids, perm⟩
    · refine Drained.failed few same failed (induction ?_)
      rw [Core.Compatible, same.waiting]
      exact compatible
    · refine Drained.success consistent.toWellKeyed size ids perm
        (induction ?_)
      intro player member other member'
      exact compatible player
        (perm.mem_iff.mp (List.mem_append_right _ member)) other
        (perm.mem_iff.mp (List.mem_append_right _ member'))

set_option maxRecDepth 100000 in
theorem rounds_drain_twentyThree :
    ∃ log last final, Rounds Clock.Onward soleWorker .new
        (.stocked ⟨0, 1000⟩ (queueOf 23 1500)) log last final ∧
      log.length = 5 ∧
      Drained (.stocked ⟨0, 1000⟩ (queueOf 23 1500)) final log := by
  have distinct : ((queueOf 23 1500).map (·.id)).Nodup := by decide +kernel
  obtain ⟨log, last, final, rounds, length⟩ := @exists_rounds Clock.Onward
    soleWorker .new (.stocked ⟨0, 1000⟩ (queueOf 23 1500)) _ inOrder 5
  refine ⟨log, last, final, rounds, length, ?_⟩
  refine @rounds_drain _ soleWorker _ _ _ _ _ _ _ Config.fromEnv_unset
    (.stocked _ distinct ?_) ?_ rounds
  · decide +kernel
  · rw [Core.Compatible, waiting_stocked _ distinct]
    decide +kernel

end Matchmaker
