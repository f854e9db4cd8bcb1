import Matchmaker.Engine.Queue
import Matchmaker.Sequential.Forming
import Matchmaker.Sequential.Stock

namespace Matchmaker

open Concurrent

/-! What enqueueing and cancelling do when they run alone. -/

namespace Core

def join (core : Core) (player : Player) : Core :=
  { (core.setCells player fun _ => .new).enter player with
    allocated := core.allocated + 1
    metrics :=
      (core.metrics.fetchAdd 1 .totalPlayersEnqueued).addQueueSize 1 }

def leave (core : Core) (player : Player) : Core :=
  { (core.setCells player fun cells =>
      { cells with state := .evicted }).withdraw [player] with
    metrics :=
      (core.metrics.addQueueSize (-1)).fetchAdd 1 .totalPlayersCancelled }

/-- The three ways in which `enqueue` ends. -/
inductive Enqueues (core : Core) (passes : Clock → Clock → Prop)
    (id : Uuid) (skillRating : Nat) : Except EnqueueError Nat → Core → Prop
  | invalid {core' : Core} (high : maxSkillRating < skillRating)
      (drifts : core.Drifts passes core') :
      Enqueues core passes id skillRating
        (.error (.invalidSkillRating skillRating maxSkillRating)) core'
  | queued {other : Player} {core' : Core}
      (bounded : skillRating ≤ maxSkillRating)
      (found : core.primary.lookup id = some other)
      (drifts : core.Drifts passes core') :
      Enqueues core passes id skillRating (.error (.alreadyQueued id)) core'
  | joined {moment : Clock} {core' : Core}
      (bounded : skillRating ≤ maxSkillRating)
      (absent : core.primary.lookup id = none)
      (passed : passes core.clock moment)
      (drifts : ((core.timed moment).join
        ⟨core.allocated, id, skillRating, moment.instant⟩).Drifts passes
          core') :
      Enqueues core passes id skillRating
        (.ok (core.primary.entries.length + 1)) core'

/-- The three ways in which `cancel` ends. -/
inductive Cancels (core : Core) (passes : Clock → Clock → Prop) (id : Uuid) :
    Except CancelError Unit → Core → Prop
  | notFound {core' : Core} (absent : core.primary.lookup id = none)
      (drifts : core.Drifts passes core') :
      Cancels core passes id (.error (.notFound id)) core'
  | currentlyBeingMatched {player : Player} {core' : Core}
      (found : core.primary.lookup id = some player)
      (busy : (core.cells player).state ≠ .waiting)
      (drifts : core.Drifts passes core') :
      Cancels core passes id (.error (.currentlyBeingMatched id)) core'
  | cancelled {player : Player} {core' : Core}
      (found : core.primary.lookup id = some player)
      (waiting : (core.cells player).state = .waiting)
      (drifts : (core.leave player).Drifts passes core') :
      Cancels core passes id (.ok ()) core'

end Core

variable {passes : Clock → Clock → Prop} [IsPreorder Clock passes]
  {core : Core}

theorem length_insert_of_absent {primary : Primary} {player : Player}
    (absent : primary.lookup player.id = none) :
    (primary.insert player.id player).entries.length =
      primary.entries.length + 1 := by
  rw [AList.entries_insert_of_notMem (AList.lookup_eq_none.mp absent)]
  rfl

theorem alone_enqueue (id : Uuid) (skillRating : Nat) :
    Alone passes core (MatchmakerCore.enqueue id skillRating)
      (core.Enqueues passes id skillRating) := by
  rw [MatchmakerCore.enqueue]
  split
  · rename_i high
    exact .invalid high (.refl core)
  · rename_i bounded
    apply alone_access_bind.mpr
    intro clock passed _
    change Alone passes (core.timed clock)
      (if (core.primary.lookup id).isSome = true then _ else _) _
    split
    · rename_i present
      obtain ⟨other, found⟩ := Option.isSome_iff_exists.mp present
      exact .queued (by omega) found ⟨clock, passed, rfl⟩
    · rename_i absent
      have absent : core.primary.lookup id = none := by simpa using absent
      apply alone_access_bind.mpr
      rintro moment passed₁ _
      apply alone_access_bind.mpr
      rintro clock₂ passed₂ _
      apply alone_access_bind.mpr
      rintro clock₃ passed₃ _
      apply alone_access_bind.mpr
      rintro clock₄ passed₄ _
      apply Turns.bind (counts_fetchAdd _ _ _)
      rintro clock₅ passed₅
      apply Turns.bind (counts_addQueueSize _ _)
      rintro clock₆ passed₆
      apply alone_access_bind.mpr
      rintro clock₇ passed₇ _
      have later := trans_of passes (trans_of passes passed₂ passed₃)
        (trans_of passes passed₄ passed₅)
      have ended : ((core.timed moment).join
          ⟨core.allocated, id, skillRating, moment.instant⟩).Drifts passes
            _ := ⟨clock₇, trans_of passes later
              (trans_of passes passed₆ passed₇), rfl⟩
      have length := @length_insert_of_absent core.primary
        ⟨core.allocated, id, skillRating, moment.instant⟩ absent
      have joined := Core.Enqueues.joined (by omega) absent
        (trans_of passes passed passed₁) ended
      rw [← length] at joined
      exact joined

theorem alone_cancel (keyed : WellKeyed core) (id : Uuid) :
    Alone passes core (MatchmakerCore.cancel id)
      (core.Cancels passes id) := by
  apply alone_access_bind.mpr
  intro clock passed choice
  have asked : (core.timed clock).perform choice (.primaryGet id) =
      (core.primary.lookup id, core.timed clock) := rfl
  rw [asked]
  cases found : core.primary.lookup id with
  | none => exact .notFound found ⟨clock, passed, rfl⟩
  | some player =>
      obtain rfl := keyed.primary found
      apply alone_access_bind.mpr
      rintro clock₁ passed₁ choice
      have earlier := trans_of passes passed passed₁
      by_cases waiting : (core.cells player).state = .waiting
      · have taken : ((core.timed clock).timed clock₁).perform choice
            (.exchange player .tryEvict) =
              (true, (core.setCells player fun cells =>
                { cells with state := .evicted }).timed clock₁) :=
          if_pos waiting
        rw [taken]
        refine Turns.bind (turns_remove found) fun clock₂ passed₂ => ?_
        apply Turns.bind (counts_addQueueSize _ _)
        rintro clock₃ passed₃
        apply Turns.bind (counts_fetchAdd _ _ _)
        rintro clock₄ passed₄
        refine .cancelled found waiting ⟨clock₄, ?_, rfl⟩
        exact trans_of passes (trans_of passes earlier passed₂)
          (trans_of passes passed₃ passed₄)
      · have kept : ((core.timed clock).timed clock₁).perform choice
            (.exchange player .tryEvict) = (false, core.timed clock₁) :=
          if_neg waiting
        rw [kept]
        exact .currentlyBeingMatched found waiting ⟨clock₁, earlier, rfl⟩

end Matchmaker
