import Matchmaker.Sequential.Attempt

namespace Matchmaker

open Concurrent

/-! Attempts of one worker, one after the other. -/

/-- The pool as an attempt leaves it, with the clock going on in between. -/
abbrev Rounds (passes : Clock → Clock → Prop) (ctx : WorkerContext) :
    WorkerState → Core →
      List (Program.Served semantics Unit MatchAttemptResult) →
        WorkerState → Core → Prop :=
  Program.Serial semantics (Core.Drifts passes)
    fun state (_ : Unit) => attemptMatch ctx state

variable {passes : Clock → Clock → Prop} {ctx : WorkerContext}
  {state : WorkerState} {core core' : Core} {players : List Player}
  {moments : Moments}

theorem Consistent.stores (consistent : Consistent core)
    (primary : core'.primary = core.primary)
    (index : core'.index = core.index) : Consistent core' where
  primary := by
    rw [primary]
    exact consistent.primary
  index := by
    rw [index]
    exact consistent.index
  synchronised := by
    rw [Synchronised, index, primary]
    exact consistent.synchronised
  bounded := by
    rw [primary]
    exact consistent.bounded

/-- The two cores have the same players in the same stores. -/
structure Core.SamePool (core core' : Core) : Prop where
  cells : core'.cells = core.cells
  primary : core'.primary = core.primary
  index : core'.index = core.index

namespace Core.SamePool

theorem trans {core'' : Core} (first : core.SamePool core')
    (second : core'.SamePool core'') : core.SamePool core'' :=
  ⟨second.cells.trans first.cells, second.primary.trans first.primary,
    second.index.trans first.index⟩

theorem of_drifts (drifts : core.Drifts passes core') :
    core.SamePool core' := by
  obtain ⟨clock, _, rfl⟩ := drifts
  exact ⟨rfl, rfl, rfl⟩

variable (same : core.SamePool core')
include same

theorem waiting : core'.waiting = core.waiting := by
  have waits : core'.waits = core.waits := by
    funext player
    rw [Core.waits, Core.waits, same.cells]
  rw [Core.waiting, Core.waiting, waits, same.primary]

theorem consistent (consistent : Consistent core) : Consistent core' :=
  consistent.stores same.primary same.index

end Core.SamePool

section Withdraw

variable (consistent : Consistent core)
  (found : ∀ player ∈ players, core.primary.lookup player.id = some player)
include consistent found

theorem Consistent.withdraw : Consistent (core.withdraw players) where
  primary := by
    intro id player stored
    rw [Core.lookup_withdraw] at stored
    split at stored
    · cases stored
    · exact consistent.primary stored
  index := by
    intro key player stored
    rw [Core.index_withdraw] at stored
    split at stored
    · cases stored
    · exact consistent.index stored
  synchronised := by
    intro skillRating id
    have before := consistent.synchronised skillRating id
    rw [Core.index_withdraw, Core.lookup_withdraw]
    by_cases gone : id ∈ players.map (·.id)
    · obtain ⟨player, member, rfl⟩ := List.mem_map.mp gone
      rw [if_pos gone, Option.filter_none]
      split
      · rfl
      · rename_i outside
        rw [before, found player member, Option.filter_eq_none_iff]
        rintro _ ⟨⟩ rated
        refine outside (List.mem_map.mpr ⟨player, member, ?_⟩)
        rw [Player.ratingKey, of_decide_eq_true rated]
    · rw [if_neg gone, if_neg, before]
      intro keyed
      obtain ⟨player, member, same⟩ := List.mem_map.mp keyed
      exact gone (List.mem_map.mpr ⟨player, member, congrArg Prod.snd same⟩)
  bounded := by
    intro id player stored
    rw [Core.lookup_withdraw] at stored
    split at stored
    · cases stored
    · exact consistent.bounded stored

theorem Consistent.form : Consistent (core.form ctx players moments) :=
  (consistent.withdraw found).stores rfl rfl

/-- The players that were taken out are those that are missing. -/
theorem Core.stored_withdraw {player : Player} :
    (∃ id, (core.withdraw players).primary.lookup id = some player) ↔
      (∃ id, core.primary.lookup id = some player) ∧ player ∉ players := by
  constructor
  · intro given
    obtain ⟨id, stored⟩ := given
    rw [Core.lookup_withdraw] at stored
    split at stored
    · cases stored
    · rename_i outside
      refine ⟨⟨id, stored⟩, fun member => outside ?_⟩
      exact List.mem_map.mpr ⟨player, member, consistent.primary stored⟩
  · intro given
    obtain ⟨⟨id, stored⟩, apart⟩ := given
    refine ⟨id, ?_⟩
    rw [Core.lookup_withdraw, if_neg]
    · exact stored
    · intro gone
      obtain ⟨other, member, same⟩ := List.mem_map.mp gone
      have here := found other member
      rw [same, stored] at here
      cases here
      exact apart member

theorem Core.players_withdraw_perm (distinct : players.Nodup) :
    (players ++ (core.withdraw players).primary.players).Perm
      core.primary.players := by
  have nodup := consistent.toWellKeyed.nodup_players
  have nodup' := (consistent.withdraw found).toWellKeyed.nodup_players
  refine (List.perm_ext_iff_of_nodup ?_ nodup).mpr ?_
  · apply distinct.append nodup'
    intro player member member'
    exact ((Core.stored_withdraw consistent found).mp
      (Primary.mem_players.mp member')).2 member
  · intro player
    rw [List.mem_append, Primary.mem_players, Primary.mem_players,
      Core.stored_withdraw consistent found]
    by_cases member : player ∈ players
    · simp only [member, true_or, true_iff]
      exact ⟨player.id, found player member⟩
    · simp [member]

/-- The matched players have left the pool, and the others wait as before. -/
theorem Core.mem_waiting_form {player : Player} :
    player ∈ (core.form ctx players moments).waiting ↔
      player ∈ core.waiting ∧ player ∉ players := by
  have stored := @Core.stored_withdraw core players consistent found player
  rw [Core.mem_waiting, Core.mem_waiting, and_right_comm, ← stored]
  apply and_congr_right
  intro left
  rw [Core.cells_form_not_mem (stored.mp left).2]

theorem Core.waiting_form_perm (distinct : players.Nodup)
    (waiting : ∀ player ∈ players, player ∈ core.waiting) :
    (players ++ (core.form ctx players moments).waiting).Perm
      core.waiting := by
  have nodup := Core.nodup_waiting consistent.toWellKeyed
  have nodup' := Core.nodup_waiting
    (consistent.form found : Consistent (core.form ctx players moments)
      ).toWellKeyed
  refine (List.perm_ext_iff_of_nodup ?_ nodup).mpr ?_
  · apply distinct.append nodup'
    intro player member member'
    exact ((Core.mem_waiting_form consistent found).mp member').2 member
  · intro player
    rw [List.mem_append, Core.mem_waiting_form consistent found]
    by_cases member : player ∈ players
    · simp [member, waiting player member]
    · simp [member]

end Withdraw

theorem Core.chosen_waiting (consistent : Consistent core)
    {bounds : Nat × Nat} {player : Player}
    (member : player ∈ core.chosen bounds) : player ∈ core.waiting := by
  have windowed := Core.chosen_subset consistent.toWellKeyed
    consistent.synchronised member
  rw [Core.window_eq] at windowed
  exact (List.mem_filter.mp windowed).1

theorem Core.chosen_found (consistent : Consistent core)
    {bounds : Nat × Nat} {player : Player}
    (member : player ∈ core.chosen bounds) :
    core.primary.lookup player.id = some player := by
  obtain ⟨⟨id, found⟩, _⟩ :=
    Core.mem_waiting.mp (Core.chosen_waiting consistent member)
  rw [consistent.primary found]
  exact found

theorem Core.nodup_chosen_ids (consistent : Consistent core)
    {bounds : Nat × Nat} : ((core.chosen bounds).map (·.id)).Nodup := by
  refine List.Nodup.map_on ?_ (Core.nodup_chosen consistent.toWellKeyed)
  intro player member other member' same
  exact Core.eq_of_id consistent.toWellKeyed
    ⟨_, Core.chosen_found consistent member⟩
    ⟨_, Core.chosen_found consistent member'⟩ same

theorem Core.Attempts.consistent
    {outcome : MatchAttemptResult × WorkerState}
    (consistent : Consistent core)
    (attempts : core.Attempts passes ctx state outcome core') :
    Consistent core' := by
  cases attempts with
  | poolEmpty nobody drifts =>
      exact (Core.SamePool.of_drifts drifts).consistent consistent
  | insufficient selects scans few staged drifts =>
      apply (Core.SamePool.of_drifts drifts).consistent
      exact @Core.SamePool.consistent core _ ⟨rfl, rfl, rfl⟩ consistent
  | @success _ bounds _ _ selects scans enough after drifts =>
      apply (Core.SamePool.of_drifts drifts).consistent
      have counted : Consistent (core.count .workerCyclesTotal) :=
        @Core.SamePool.consistent core _ ⟨rfl, rfl, rfl⟩ consistent
      exact counted.form fun player member =>
        Core.chosen_found consistent member

theorem exists_rounds [IsPreorder Clock passes] (choice : Choice)
    (count : Nat) : ∃ log last final,
      Rounds passes ctx state core log last final ∧ log.length = count := by
  have rounds := @Program.serial_serially _ _ _ _ semantics
    (Core.Drifts passes) (fun state (_ : Unit) => attemptMatch ctx state)
    Core.Drifts.refl choice (List.replicate count ()) state core
  have length := congrArg List.length (@Program.requests_serially _ _ _ _
    semantics (fun state (_ : Unit) => attemptMatch ctx state) choice
    (List.replicate count ()) state core)
  rw [List.length_map, List.length_replicate] at length
  exact ⟨_, _, _, rounds, length⟩

/-- Rule for rounds: each call is an attempt on a consistent pool. -/
theorem Rounds.induct [IsPreorder Clock passes]
    {motive : WorkerState → Core →
      List (Program.Served semantics Unit MatchAttemptResult) →
        WorkerState → Core → Prop}
    (nil : ∀ state core, Consistent core → motive state core [] state core)
    (cons : ∀ state core answer state' core' log last final,
      Consistent core → core.Attempts passes ctx state (answer, state') core' →
        motive state' core' log last final →
          motive state core (⟨(), answer, core'⟩ :: log) last final)
    {log : List (Program.Served semantics Unit MatchAttemptResult)}
    {last : WorkerState} {final : Core} (consistent : Consistent core)
    (rounds : Rounds passes ctx state core log last final) :
    motive state core log last final := by
  refine Program.Serial.rec (motive := fun state core log last final _ =>
    Consistent core → motive state core log last final) nil ?_ rounds
      consistent
  intro state core answer state' core' log last final _ completes _ induction
    consistent
  have attempts := (alone_attemptMatch consistent).completes completes
  exact cons state core answer state' core' log last final consistent attempts
    (induction (attempts.consistent consistent))

theorem Rounds.first [IsPreorder Clock passes] (consistent : Consistent core)
    {log : List (Program.Served semantics Unit MatchAttemptResult)}
    {last : WorkerState} {final : Core}
    (rounds : Rounds passes ctx state core log last final)
    (some : 0 < log.length) :
    ∃ answer state' core' others, log = ⟨(), answer, core'⟩ :: others ∧
      core.Attempts passes ctx state (answer, state') core' ∧
      Rounds passes ctx state' core' others last final := by
  obtain ⟨_, answer, state', core', others, rfl, completes, rest⟩ :=
    Program.Serial.first rounds some
  exact ⟨answer, state', core', others, rfl,
    (alone_attemptMatch consistent).completes completes, rest⟩

end Matchmaker
