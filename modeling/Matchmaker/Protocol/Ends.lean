import Matchmaker.Protocol.Custody

namespace Matchmaker

open Concurrent

/-! How calls end their business with a player: matches, evictions and
publications. -/

theorem transfers_subset (event : Event memory) (trace : Trace) :
    transfers trace ⊆ transfers (event :: trace) := by
  intro transfer member
  cases found : transferOf event with
  | none =>
      rw [transfers_cons_of_none found]
      exact member
  | some first =>
      rw [transfers, List.filterMap_cons_some found]
      exact List.mem_cons_of_mem _ member

/-- The call is done with the player for good. -/
def Phase.Settled : Phase → Bool
  | .marked | .missed | .evicted => true
  | _ => false

theorem Moves.settled {player : Player} {operation : Operation}
    {result : operation.Result} {before after : Phase}
    (moved : Moves player operation result before after)
    (settled : before.Settled) : after = before := by
  cases moved with
  | stay => rfl
  | _ => cases settled

/-- The phase that a final exchange leads to. -/
def Exchange.settles : Exchange → Option Phase
  | .markMatched => some .marked
  | .tryEvict => some .evicted
  | _ => none

theorem Moves.settles {player : Player} {operation : Operation}
    {result : operation.Result} {before after : Phase} {site : Exchange}
    (moved : Moves player operation result before after)
    (settles : site.settles = some after) :
    before = after ∨ operation = .exchange player site ∧ result ≍ true := by
  cases moved with
  | mark =>
      cases site <;> cases settles
      exact .inr ⟨rfl, .rfl⟩
  | evict =>
      cases site <;> cases settles
      exact .inr ⟨rfl, .rfl⟩
  | stay => exact .inl rfl
  | _ => cases site <;> cases settles

theorem Moves.settling {player : Player} {site : Exchange}
    {before after phase : Phase}
    (moved : Moves player (.exchange player site) true before after)
    (settles : site.settles = some phase) : after = phase := by
  cases moved with
  | stay _ untouched => simp [Operation.Touches] at untouched
  | _ => cases settles; try rfl

section Run

variable {config : Config} {clock : Clock} {discipline : Discipline}
  {system : System}

theorem Run.settled_iff (run : Run config clock discipline system)
    {caller : Nat} {player : Player} {site : Exchange} {phase : Phase}
    (settles : site.settles = some phase) :
    phaseOf caller player system.trace = phase ↔
      ⟨caller, player, site⟩ ∈ transfers system.trace := by
  have settled : phase.Settled := by
    cases site <;> cases settles <;> rfl
  refine Run.invariant run (fun _ trace =>
    phaseOf caller player trace = phase ↔
      ⟨caller, player, site⟩ ∈ transfers trace) ?_
    (fun _ _ holds => holds) ?_
  · constructor
    · intro idle
      subst idle
      cases settled
    · intro none
      cases none
  · intro system mover request operation choice run performing holds
    by_cases same : mover = caller
    · subst same
      have moved := performing.moves player choice
      constructor
      · intro reached
        rw [← reached] at settles
        rcases moved.settles settles with before | ⟨rfl, success⟩
        · exact transfers_subset _ _ (holds.mp (before.trans reached))
        · exact lastTransfer_mem
            (lastTransfer_disturbed (eq_of_heq success) choice)
      · intro member
        rcases transfers_cons_cases member with earlier | succeeded
        · have before := holds.mpr earlier
          rw [← before] at settled
          exact (moved.settled settled).trans before
        · obtain rfl : operation = _ := congrArg Event.operation succeeded
          have success : (system.world.perform choice
              (.exchange player site)).1 = true :=
            eq_of_heq (Event.mk.inj succeeded).2.2
          rw [success] at moved
          exact moved.settling settles
    · rw [phaseOf_other same, holds]
      constructor
      · exact fun member => transfers_subset _ _ member
      · intro member
        rcases transfers_cons_cases member with earlier | succeeded
        · exact earlier
        · exact absurd (congrArg Event.caller succeeded) same

theorem Run.final_unique (run : Run config clock discipline system)
    {first second : Transfer} (member : first ∈ transfers system.trace)
    (member' : second ∈ transfers system.trace)
    (settled : first.site = .markMatched ∨ first.site = .tryEvict)
    (settled' : second.site = .markMatched ∨ second.site = .tryEvict)
    (same : first.player = second.player) : first = second := by
  have last := Run.final run member settled
  rw [same, Run.final run member' settled'] at last
  exact (Option.some.inj last).symm

/-- What is known of a published match, whatever happened around it. -/
structure Recorded (trace : Trace) (publication : Publication) : Prop where
  sizeA : publication.teamA.length = teamSize
  sizeB : publication.teamB.length = teamSize
  distinct : publication.players.Nodup
  players : (progressOf publication.caller trace).published =
    publication.players
  phases : ∀ player ∈ publication.players,
    phaseOf publication.caller player trace = .marked ∨
      phaseOf publication.caller player trace = .missed
  recordA : publication.record.teamA.players.map (·.id) =
    publication.teamA.map (·.id)
  recordB : publication.record.teamB.players.map (·.id) =
    publication.teamB.map (·.id)

theorem Recorded.nonempty {trace : Trace} {publication : Publication}
    (recorded : Recorded trace publication) : publication.players ≠ [] := by
  intro empty
  have total : publication.players.length = teamSize + teamSize := by
    rw [Publication.players, List.length_append, recorded.sizeA,
      recorded.sizeB]
  rw [empty] at total
  cases total

theorem published_next {progress : Progress} {operation : Operation}
    {result : operation.Result}
    (quiet : ∀ teamA teamB record limit,
      operation ≠ .pushHistory teamA teamB record limit) :
    (progress.next operation result).published = progress.published := by
  cases operation with
  | pushHistory teamA teamB record limit =>
      exact absurd rfl (quiet teamA teamB record limit)
  | _ => rfl

theorem phaseOf_settled {caller mover : Nat} {request : Request}
    {operation : Operation} {player : Player} {choice : Choice}
    (performing : Performing config discipline system mover request operation)
    (settled : (phaseOf caller player system.trace).Settled) :
    phaseOf caller player
        (system.eventOf mover choice operation :: system.trace) =
      phaseOf caller player system.trace := by
  by_cases same : mover = caller
  · subst same
    exact (performing.moves player choice).settled settled
  · exact phaseOf_other same choice

theorem Recorded.step {mover : Nat} {request : Request}
    {operation : Operation} {publication : Publication} {choice : Choice}
    (recorded : Recorded system.trace publication)
    (performing : Performing config discipline system mover request operation) :
    Recorded (system.eventOf mover choice operation :: system.trace)
      publication := by
  refine ⟨recorded.sizeA, recorded.sizeB, recorded.distinct, ?_, ?_,
    recorded.recordA, recorded.recordB⟩
  · by_cases same : mover = publication.caller
    · subst same
      rw [progressOf_self, published_next, recorded.players]
      rintro teamA teamB record limit rfl
      have once := performing.allowed.2.once
      rw [recorded.players] at once
      exact recorded.nonempty once
    · rw [progressOf_other same, recorded.players]
  · intro player member
    have before := recorded.phases player member
    rw [phaseOf_settled performing]
    · exact before
    · rcases before with before | before <;> rw [before] <;> rfl

theorem publications_push {mover : Nat} {teamA teamB : List Player}
    {record : Match} {limit : Nat} {choice : Choice} :
    publications (system.eventOf mover choice
        (.pushHistory teamA teamB record limit) :: system.trace) =
      ⟨mover, teamA, teamB, record⟩ :: publications system.trace := rfl

theorem Recorded.first {mover : Nat} {request : Request}
    {teamA teamB : List Player} {record : Match} {limit : Nat}
    {choice : Choice}
    (performing : Performing config discipline system mover request
      (.pushHistory teamA teamB record limit)) :
    Recorded (system.eventOf mover choice
        (.pushHistory teamA teamB record limit) :: system.trace)
      ⟨mover, teamA, teamB, record⟩ := by
  obtain ⟨_, publishes⟩ := performing.allowed
  refine ⟨publishes.sizeA, publishes.sizeB, publishes.distinct, ?_, ?_,
    publishes.recordA, publishes.recordB⟩
  · rw [progressOf_self]
    rfl
  · intro player member
    rw [phaseOf, progressOf_self]
    exact (publishes.players player).mp member

theorem Run.recorded (run : Run config clock discipline system)
    {publication : Publication}
    (member : publication ∈ publications system.trace) :
    Recorded system.trace publication := by
  refine Run.invariant run (fun _ trace => publication ∈ publications trace →
    Recorded trace publication) ?_ (fun _ _ holds => holds) ?_ member
  · intro none
    cases none
  · intro system mover request operation choice run performing holds member
    cases operation with
    | pushHistory teamA teamB record limit =>
        rcases List.mem_cons.mp member with rfl | earlier
        · exact .first performing
        · exact (holds earlier).step performing
    | _ => exact (holds member).step performing

theorem Run.callers_nodup (run : Run config clock discipline system) :
    ((publications system.trace).map Publication.caller).Nodup := by
  apply Run.invariant run (fun _ trace =>
    ((publications trace).map Publication.caller).Nodup) .nil
    (fun _ _ holds => holds)
  intro system mover request operation choice run performing holds
  cases operation with
  | pushHistory teamA teamB record limit =>
      rw [publications_push, List.map_cons, List.nodup_cons]
      refine ⟨?_, holds⟩
      intro again
      obtain ⟨publication, member, same⟩ := List.mem_map.mp again
      have recorded := Run.recorded run member
      have players := recorded.players
      rw [same] at players
      exact recorded.nonempty
        (players.symm.trans performing.allowed.2.once)
  | _ => exact holds

theorem Run.publication_of (run : Run config clock discipline system)
    {caller : Nat} {player : Player}
    (member : player ∈ (progressOf caller system.trace).published) :
    ∃ publication ∈ publications system.trace,
      publication.caller = caller ∧ player ∈ publication.players := by
  refine Run.invariant run (fun _ trace =>
    player ∈ (progressOf caller trace).published →
      ∃ publication ∈ publications trace,
        publication.caller = caller ∧ player ∈ publication.players) ?_
    (fun _ _ holds => holds) ?_ member
  · intro none
    cases none
  · intro system mover request operation choice run performing holds member
    by_cases same : mover = caller
    · subst same
      rw [progressOf_self] at member
      cases operation with
      | pushHistory teamA teamB record limit =>
          exact ⟨_, List.mem_cons_self .., rfl, member⟩
      | _ => exact holds member
    · rw [progressOf_other same] at member
      obtain ⟨publication, earlier, own, listed⟩ := holds member
      refine ⟨publication, ?_, own, listed⟩
      cases operation with
      | pushHistory => exact List.mem_cons_of_mem _ earlier
      | _ => exact earlier

/-- If every published player was marked, no player is published twice. -/
theorem Run.published_nodup (run : Run config clock discipline system)
    (marked : ∀ publication ∈ publications system.trace,
      ∀ player ∈ publication.players,
        ⟨publication.caller, player, .markMatched⟩ ∈
          transfers system.trace) :
    (published system.trace).Nodup := by
  rw [published, List.nodup_flatMap]
  refine ⟨fun publication member => (Run.recorded run member).distinct, ?_⟩
  have distinct := List.pairwise_map.mp (Run.callers_nodup run)
  apply distinct.imp_of_mem
  intro first second member member' different player inFirst inSecond
  have same := Run.final_unique run (marked first member player inFirst)
    (marked second member' player inSecond) (.inl rfl) (.inl rfl) rfl
  exact different (congrArg Transfer.caller same)

theorem Run.published_not_evicted (run : Run config clock discipline system)
    (marked : ∀ publication ∈ publications system.trace,
      ∀ player ∈ publication.players,
        ⟨publication.caller, player, .markMatched⟩ ∈
          transfers system.trace)
    {caller : Nat} {player : Player}
    (evicted : ⟨caller, player, .tryEvict⟩ ∈ transfers system.trace) :
    player ∉ published system.trace := by
  intro member
  obtain ⟨publication, among, inTeams⟩ := List.mem_flatMap.mp member
  have same := Run.final_unique run (marked publication among player inTeams)
    evicted (.inl rfl) (.inr rfl) rfl
  exact Exchange.noConfusion (congrArg Transfer.site same)

theorem Run.cancelled (run : Run config clock discipline system)
    {caller : Nat} {id : Uuid}
    (returned : system.calls[caller]? =
      some ⟨.cancel id, .pure (.cancel (.ok ()))⟩) :
    ∃ player, player.id = id ∧
      ⟨caller, player, .tryEvict⟩ ∈ transfers system.trace := by
  have ended := (Run.sound run).follows.returned returned
  obtain ⟨_, player, same, phases⟩ := ended
  refine ⟨player, same, (Run.settled_iff run rfl).mp ?_⟩
  rw [phaseOf, phases, if_pos rfl]

end Run

/-- A call with nothing left to do. -/
structure Rested (progress : Progress) : Prop where
  removal : progress.removal = .none
  enrolment : progress.enrolment = .none ∨
    ∃ player, progress.enrolment = .indexed player
  inactive : ∀ player, (progress.phase player).Active = false
  cleared : ∀ player, (progress.phase player).Clears = false
  published : ∀ player, progress.phase player = .marked →
    player ∈ progress.published

theorem Progress.Unused.rested {progress : Progress}
    (unused : progress.Unused)
    (phases : ∀ player, (progress.phase player).Active = false ∧
      (progress.phase player).Clears = false ∧
      progress.phase player ≠ .marked) : Rested progress where
  removal := unused.removal
  enrolment := .inl unused.enrolment
  inactive := fun player => (phases player).1
  cleared := fun player => (phases player).2.1
  published := fun player marked => absurd marked (phases player).2.2

theorem Completed.rested {progress : Progress}
    (completed : Completed progress) : Rested progress := by
  have quiet : ∀ player, (progress.phase player).Active = false ∧
      (progress.phase player).Clears = false := by
    intro player
    by_cases member : player ∈ progress.published
    · rcases (completed.settled player).mp member with phase | phase <;>
        rw [phase] <;> exact ⟨rfl, rfl⟩
    · rw [completed.idle player member]
      exact ⟨rfl, rfl⟩
  exact ⟨completed.removal, .inl completed.enrolment,
    fun player => (quiet player).1, fun player => (quiet player).2,
    fun player marked => (completed.settled player).mpr (.inl marked)⟩

theorem Abandoned.rested {progress : Progress}
    (abandoned : Abandoned progress) : Rested progress := by
  apply abandoned.unused.rested
  intro player
  rcases abandoned.phase player with phase | phase <;> rw [phase] <;>
    exact ⟨rfl, rfl, nofun⟩

theorem EnqueueEnded.rested {id : Uuid} {skillRating : Nat}
    {outcome : Except EnqueueError Nat} {progress : Progress}
    (ended : EnqueueEnded id skillRating outcome progress) :
    Rested progress := by
  refine ⟨ended.removal, ?_, ?_, ?_, ?_⟩
  · have reported := ended.outcome
    cases outcome with
    | ok size =>
        obtain ⟨player, indexed, _⟩ := reported
        exact .inr ⟨player, indexed⟩
    | error error =>
        cases error with
        | alreadyQueued other => exact .inl reported.1
        | invalidSkillRating rating limit => exact .inl reported.1
  · intro player
    rw [ended.phase]
    rfl
  · intro player
    rw [ended.phase]
    rfl
  · intro player marked
    rw [ended.phase] at marked
    cases marked

theorem CancelEnded.rested {id : Uuid} {outcome : Except CancelError Unit}
    {progress : Progress} (ended : CancelEnded id outcome progress) :
    Rested progress := by
  apply ended.unused.rested
  intro player
  have reported := ended.outcome
  cases outcome with
  | ok _ =>
      obtain ⟨evicted, _, phases⟩ := reported
      rw [phases]
      split <;> exact ⟨rfl, rfl, nofun⟩
  | error error =>
      rw [reported]
      exact ⟨rfl, rfl, nofun⟩

theorem ReaperEnded.rested {progress : Progress}
    (ended : ReaperEnded progress) : Rested progress := by
  apply ended.unused.rested
  intro player
  rcases ended.seen player with phase | ⟨claimTs, phase⟩ | phase <;>
    rw [phase] <;> exact ⟨rfl, rfl, nofun⟩

theorem Finished.rested {request : Request} {response : Response}
    {progress : Progress} (finished : Finished request response progress) :
    Rested progress := by
  cases request with
  | enqueue id skillRating =>
      cases response with
      | enqueue outcome => exact EnqueueEnded.rested finished
      | _ => cases finished
  | cancel id =>
      cases response with
      | cancel outcome => exact CancelEnded.rested finished
      | _ => cases finished
  | attemptMatch workerId =>
      cases response with
      | attemptMatch outcome state =>
          cases outcome with
          | success completedMatch => exact Completed.rested finished
          | _ => exact Abandoned.rested finished
      | _ => cases finished
  | reaperTick =>
      cases response with
      | reaperTick => exact ReaperEnded.rested finished
      | _ => cases finished

section Run

variable {config : Config} {clock : Clock} {discipline : Discipline}
  {system : System}

theorem Run.rested (run : Run config clock discipline system) {caller : Nat}
    {call : SystemCall} (found : system.calls[caller]? = some call)
    (returned : call.program.returned?.isSome) :
    Rested (progressOf caller system.trace) := by
  obtain ⟨request, program⟩ := call
  cases program with
  | perform operation next => cases returned
  | pure response => exact ((Run.sound run).follows.returned found).rested

def System.Quiet (system : System) : Prop :=
  ∀ call ∈ system.calls, call.program.returned?.isSome

instance (system : System) : Decidable system.Quiet :=
  inferInstanceAs (Decidable (∀ call ∈ system.calls,
    call.program.returned?.isSome))

theorem Run.progress_beyond (run : Run config clock discipline system)
    {caller : Nat} (beyond : system.calls.length ≤ caller) :
    progressOf caller system.trace = .start := by
  apply Contract.ghost_of_silent
  intro event member same
  have bound := (Run.sound run).traced event member
  omega

theorem Run.rested_of_quiet (run : Run config clock discipline system)
    (quiet : system.Quiet) (caller : Nat) :
    Rested (progressOf caller system.trace) := by
  cases found : system.calls[caller]? with
  | some call =>
      exact Run.rested run found (quiet call (List.mem_of_getElem? found))
  | none =>
      rw [Run.progress_beyond run (List.getElem?_eq_none_iff.mp found)]
      exact ⟨rfl, .inl rfl, fun _ => rfl, fun _ => rfl, nofun⟩

/-- Nobody is left claimed when no call is in progress. -/
theorem Run.unclaimed (run : Run config clock discipline system)
    (quiet : system.Quiet) (player : Player) :
    (system.world.cells player).state ≠ .claimed := by
  intro claimed
  obtain ⟨claim, inForce⟩ := (Run.claimed_iff run).mp claimed
  have active := (Run.carries run inForce).active
  rw [phaseOf, (Run.rested_of_quiet run quiet claim.caller).inactive] at active
  cases active

end Run

end Matchmaker
