import Matchmaker.Sequential.Attempt
import Matchmaker.Sequential.Stock

namespace Matchmaker

open Concurrent

/-! An attempt with no other call in progress: its outcome and its frame. -/

variable {ctx : WorkerContext} {state : WorkerState} {core : Core}
  {choice : Choice}

/-- The ten players have become a match, and nothing else has changed. -/
structure Matched (ctx : WorkerContext) (core core' : Core)
    (bounds : Nat × Nat) (ten : List Player) (record : Match) : Prop where
  length : ten.length = matchSize
  distinct : ten.Nodup
  waiting : ∀ player ∈ ten, player ∈ core.window bounds
  teams : ((record.teamA.players ++ record.teamB.players).map (·.id)).Perm
    (ten.map (·.id))
  spread : record.skillSpread ≤ bounds.2 - bounds.1
  matched : ∀ player ∈ ten, core'.cells player =
    ((core.cells player).claim ctx.workerId core.clock.unixMs).settle
      core.clock.instant
  others : ∀ player, player ∉ ten →
    core'.cells player = core.cells player
  primary : ∀ id, core'.primary.lookup id =
    if id ∈ ten.map (·.id) then none else core.primary.lookup id
  index : ∀ key : Nat × Uuid, core'.index[key]? =
    if key ∈ ten.map (·.ratingKey) then none else core.index[key]?
  history : core'.history =
    (core.pushHistory record ctx.matchHistoryLimit).history

/-- The outcome of an attempt and the core it leaves. -/
structure Uncontended (ctx : WorkerContext) (state : WorkerState)
    (choice : Choice) (core : Core)
    (outcome : (MatchAttemptResult × WorkerState) × Core) : Prop where
  empty : outcome.1.1 = .poolEmpty ↔
    ∀ id player, core.primary.lookup id = some player →
      (core.cells player).state ≠ .waiting
  seeded : outcome.1.1 ≠ .poolEmpty →
    ∃ seed, core.seed choice ctx state = some seed ∧
      ((∃ record, outcome.1.1 = .success record) ↔
        matchSize ≤ (core.window (core.scanned ctx seed)).length) ∧
      ((core.window (core.scanned ctx seed)).length < matchSize →
        ∃ window stage, outcome.1.1 = .insufficientCandidates
          (core.window (core.scanned ctx seed)).length window
          seed.skillRating stage)
  claims : ∀ claimed needed, outcome.1.1 ≠ .claimFailed claimed needed
  success : ∀ record, outcome.1.1 = .success record →
    ∃ seed ten, core.seed choice ctx state = some seed ∧
      Matched ctx core outcome.2 (core.scanned ctx seed) ten record
  unchanged : (∀ record, outcome.1.1 ≠ .success record) →
    core.Alike outcome.2

theorem skillSpread_le {players : List Player} {bounds : Nat × Nat}
    (within : ∀ player ∈ players,
      bounds.1 ≤ player.skillRating ∧ player.skillRating ≤ bounds.2)
    (inhabited : players ≠ []) :
    skillSpread players ≤ bounds.2 - bounds.1 := by
  rw [skillSpread]
  have ratings : players.map (·.skillRating) ≠ [] := by
    simpa using inhabited
  cases most : (players.map (·.skillRating)).max? with
  | none => exact absurd (List.max?_eq_none_iff.mp most) ratings
  | some highest =>
      cases least : (players.map (·.skillRating)).min? with
      | none => exact absurd (List.min?_eq_none_iff.mp least) ratings
      | some lowest =>
          obtain ⟨top, member, rfl⟩ := List.mem_map.mp (List.max?_mem most)
          obtain ⟨bottom, member', rfl⟩ :=
            List.mem_map.mp (List.min?_mem least)
          have upper := (within top member).2
          have lower := (within bottom member').1
          simp only [Option.getD_some]
          omega

section Frozen

variable (consistent : Consistent core)
include consistent

theorem matched_of_enough {bounds : Nat × Nat} {moments : Moments}
    (enough : matchSize ≤ (core.window bounds).length)
    (after : moments.After Eq core.clock (core.chosen bounds)) :
    Matched ctx core ((core.count .workerCyclesTotal).form ctx
      (core.chosen bounds) moments) bounds (core.chosen bounds)
      (moments.record (core.chosen bounds)) := by
  have keyed := consistent.toWellKeyed
  have ten := Core.length_chosen keyed consistent.synchronised enough
  have windowed := fun player =>
    @Core.chosen_subset core bounds keyed consistent.synchronised player
  obtain ⟨_, _, perm⟩ := exhaustiveBalance_split ten fun player member => by
    obtain ⟨id, found⟩ := (Core.mem_window.mp (windowed player member)).1
    exact consistent.bounded found
  have claimed := sometime_eq.mp after.claimed
  refine ⟨ten, Core.nodup_chosen keyed, windowed, ?_, ?_, ?_, ?_,
    fun _ => Core.lookup_form, fun _ => Core.index_form, rfl⟩
  · rw [Moments.record_ids]
    exact perm.map _
  · apply skillSpread_le (fun player member =>
      (Core.mem_window.mp (windowed player member)).2.2)
    intro none
    rw [none] at ten
    cases ten
  · intro player member
    rw [Core.cells_form_mem member, claimed,
      sometime_eq.mp (after.matched player member)]
    rfl
  · intro player outside
    exact Core.cells_form_not_mem outside

theorem attempts_seed (choice : Choice) {seed : Player}
    (selects : core.Selects Eq ctx state (some seed)) :
    core.seed choice ctx state = some seed :=
  Core.Selects.unique consistent.toWellKeyed
    (Alone.frozen finds_selectSeed choice).1 selects

theorem success_iff {seed : Player}
    (chosen : core.seed choice ctx state = some seed) :
    (∃ record, ((attemptMatch ctx state).exec semantics choice core).1.1 =
      .success record) ↔
        matchSize ≤ (core.window (core.scanned ctx seed)).length := by
  have attempts := Alone.frozen
    (@alone_attemptMatch Eq ctx state core _ consistent) choice
  generalize (attemptMatch ctx state).exec semantics choice core = outcome
    at attempts
  obtain ⟨answer, core'⟩ := outcome
  cases attempts with
  | poolEmpty nobody drifts =>
      have selected := (Alone.frozen (@finds_selectSeed Eq ctx state core _)
        choice).1
      rw [← Core.seed, chosen] at selected
      have member := selected.waiting
      rw [nobody] at member
      cases member
  | insufficient selects scans few =>
      obtain rfl := sometime_eq.mp scans
      cases chosen.symm.trans (attempts_seed consistent choice selects)
      refine iff_of_false ?_ (by exact Nat.not_le_of_lt few)
      intro found
      obtain ⟨_, impossible⟩ := found
      cases impossible
  | success selects scans enough =>
      obtain rfl := sometime_eq.mp scans
      cases chosen.symm.trans (attempts_seed consistent choice selects)
      exact iff_of_true ⟨_, rfl⟩ enough

end Frozen

/-- Nothing is claimed by an uncontended attempt that does not succeed, and it
succeeds exactly when ten players wait within the bounds of its seed. -/
theorem attemptMatch_uncontended (keyed : WellKeyed core)
    (synchronised : Synchronised core)
    (bounded : ∀ id player, core.primary.lookup id = some player →
      player.skillRating ≤ maxSkillRating) :
    Uncontended ctx state choice core
      ((attemptMatch ctx state).exec semantics choice core) := by
  have consistent : Consistent core :=
    ⟨keyed, synchronised, fun found => bounded _ _ found⟩
  have attempts := Alone.frozen
    (@alone_attemptMatch Eq ctx state core _ consistent) choice
  generalize (attemptMatch ctx state).exec semantics choice core = outcome
    at attempts
  obtain ⟨answer, core'⟩ := outcome
  have somebody : ∀ {seed}, core.Selects Eq ctx state (some seed) →
      ¬ ∀ id player, core.primary.lookup id = some player →
        (core.cells player).state ≠ .waiting := by
    intro seed selects nobody
    obtain ⟨⟨id, found⟩, waiting⟩ := Core.mem_waiting.mp selects.waiting
    exact nobody id seed found waiting
  cases attempts with
  | poolEmpty nobody drifts =>
      obtain rfl := drifts_eq.mp drifts
      refine ⟨iff_of_true rfl ?_, fun seeded => absurd rfl seeded, nofun,
        nofun, fun _ => .refl core'⟩
      intro id player found waiting
      have member := Core.mem_waiting.mpr ⟨⟨id, found⟩, waiting⟩
      rw [nobody] at member
      cases member
  | insufficient selects scans few staged drifts =>
      obtain rfl := drifts_eq.mp drifts
      obtain rfl := sometime_eq.mp scans
      refine ⟨iff_of_false nofun (somebody selects),
        fun _ => ⟨_, attempts_seed consistent choice selects, ?_, ?_⟩,
        nofun, nofun, fun _ => ⟨_, rfl⟩⟩
      · refine iff_of_false ?_ (by exact Nat.not_le_of_lt few)
        intro given
        obtain ⟨_, impossible⟩ := given
        cases impossible
      · exact fun _ => ⟨_, _, rfl⟩
  | success selects scans enough after drifts =>
      obtain rfl := drifts_eq.mp drifts
      obtain rfl := sometime_eq.mp scans
      refine ⟨iff_of_false nofun (somebody selects),
        fun _ => ⟨_, attempts_seed consistent choice selects, ?_, ?_⟩,
        nofun, ?_, fun failed => absurd rfl (failed _)⟩
      · exact iff_of_true ⟨_, rfl⟩ enough
      · exact fun less => absurd enough (Nat.not_le_of_lt less)
      · rintro _ ⟨⟩
        exact ⟨_, _, attempts_seed consistent choice selects,
          matched_of_enough consistent enough after⟩

/-- Players of one rating that arrived one after the other. -/
def queueOf (count skillRating : Nat) : List Player :=
  (List.range count).map fun i =>
    { address := i, id := Fin.ofNat _ (i + 1), skillRating, joinTimestamp := i }

/-- Players of these ratings that arrived one after the other. -/
def lineUp (ratings : List Nat) : List Player :=
  ratings.zipIdx.map fun entry =>
    { address := entry.2, id := Fin.ofNat _ (entry.2 + 1),
      skillRating := entry.1, joinTimestamp := entry.2 }

def soleWorker : WorkerContext where
  workerId := 1
  config := .default
  matchHistoryLimit := matchHistoryLimit

def inOrder : Choice where
  keptAlive := false
  uuid := 0
  arrange := id

def MatchAttemptResult.isSuccess : MatchAttemptResult → Bool
  | .success _ => true
  | _ => false

set_option maxRecDepth 100000 in
theorem attemptMatch_uncontended_ten :
    Uncontended soleWorker .new inOrder
        (.stocked ⟨0, 1000⟩ (queueOf 10 1500))
        ((attemptMatch soleWorker .new).exec semantics inOrder
          (.stocked ⟨0, 1000⟩ (queueOf 10 1500))) ∧
      ((attemptMatch soleWorker .new).exec semantics inOrder
        (.stocked ⟨0, 1000⟩ (queueOf 10 1500))).1.1.isSuccess = true := by
  refine ⟨attemptMatch_uncontended (.stocked _ _) (.stocked _ ?_) ?_, ?_⟩
  · decide +kernel
  · have all : ∀ player ∈ queueOf 10 1500,
        player.skillRating ≤ maxSkillRating := by decide +kernel
    exact fun id player found => all player (mem_of_stocked found).1
  · decide +kernel

end Matchmaker
