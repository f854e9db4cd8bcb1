import Matchmaker.Protocol.Registry

namespace Matchmaker

open Concurrent

/-! Enqueues of one identifier, one after the other. -/

def Request.enqueues (id : Uuid) : Request → Bool
  | .enqueue other _ => other = id
  | _ => false

/-- No enqueue is started while one of the same identifier is running. -/
def Discipline.noOverlap : Discipline where
  starts := fun system request =>
    match request with
    | .enqueue id _ => system.calls.all fun call =>
        !call.request.enqueues id || call.program.returned?.isSome
    | _ => true
  performs := fun _ _ _ => true

/-- Each identifier is enqueued once. -/
def Discipline.distinctIds : Discipline where
  starts := fun system request =>
    match request with
    | .enqueue id _ => system.calls.all fun call => !call.request.enqueues id
    | _ => true
  performs := fun _ _ _ => true

/-- An enqueue of the identifier that has not returned. -/
def EnqueueBusy (id : Uuid) (call : SystemCall) : Prop :=
  call.request.enqueues id = true ∧ call.program.returned? = none

namespace Enrolment

def id? : Enrolment → Option Uuid
  | .none => Option.none
  | .absent id => some id
  | .created player | .stored player | .indexed player => some player.id

/-- The identifier of a player that the call has still to add. -/
def pendingId? : Enrolment → Option Uuid
  | .none | .indexed _ => Option.none
  | .absent id => some id
  | .created player | .stored player => some player.id

theorem id_of_pending {enrolment : Enrolment} {id : Uuid}
    (pending : enrolment.pendingId? = some id) : enrolment.id? = some id := by
  cases enrolment with
  | none | indexed => cases pending
  | absent | created | stored => exact pending

end Enrolment

section Run

variable {config : Config} {clock : Clock} {discipline : Discipline}
  {system : System}

theorem Run.one_enqueue (run : Run config clock .noOverlap system)
    (id : Uuid) : system.Exclusive (EnqueueBusy id) := by
  apply Run.exclusive run
  · intro request operation next result busy
    exact ⟨busy.1, rfl⟩
  · intro system request task started _ busy call member running
    cases request with
    | enqueue other skillRating =>
        obtain rfl : other = id := of_decide_eq_true busy.1
        have ended := List.all_eq_true.mp started call member
        simp [running.1, running.2] at ended
    | _ => cases busy.1

theorem Run.enqueued_once (run : Run config clock .distinctIds system)
    (id : Uuid) :
    system.Exclusive fun call => call.request.enqueues id = true := by
  apply @Run.exclusive _ _ _ _ run
    (fun call => call.request.enqueues id = true)
  · intro request operation next result same
    exact same
  intro system request task started _ enqueues call member same
  cases request with
  | enqueue other skillRating =>
      obtain rfl : other = id := of_decide_eq_true enqueues
      have distinct := List.all_eq_true.mp started call member
      simp [same] at distinct
  | _ => cases enqueues

theorem Run.noOverlap_of_distinctIds
    (run : Run config clock .distinctIds system) :
    Run config clock .noOverlap system := by
  refine Run.mono run ?_ fun _ _ => rfl
  intro system request started
  cases request with
  | enqueue id skillRating =>
      apply List.all_eq_true.mpr
      intro call member
      have distinct := List.all_eq_true.mp started call member
      exact Bool.or_eq_true_iff.mpr (.inl distinct)
  | _ => rfl

theorem Request.enqueues_of_role {request : Request} {id : Uuid}
    {skillRating : Nat}
    (role : request.role config = .enqueue id skillRating) :
    request.enqueues id = true := by
  cases request with
  | enqueue other rating =>
      cases role
      exact decide_eq_true rfl
  | _ => cases role

theorem Run.enqueues (run : Run config clock discipline system)
    {caller : Nat} {id : Uuid}
    (named : (enrolmentOf caller system.trace).id? = some id) :
    ∃ call, system.calls[caller]? = some call ∧
      call.request.enqueues id = true := by
  refine @Run.requested _ _ _ _ run
    (fun progress => progress.enrolment.id? = some id)
    (fun request => request.enqueues id = true) nofun ?_ caller named
  intro system caller request operation choice performing
    (named : (enrolmentOf caller (_ :: _)).id? = some id)
  show (enrolmentOf caller system.trace).id? = some id ∨ _
  have moved := performing.enrols choice
  generalize enrolmentOf caller system.trace = before at moved
  generalize enrolmentOf caller (_ :: _) = after at moved named
  generalize answer : (system.world.perform choice operation).1 = result
    at moved
  cases moved with
  | missing other =>
      cases named
      obtain ⟨skillRating, role⟩ := performing.allowed.1
      exact .inr (Request.enqueues_of_role role)
  | create other skillRating joinTimestamp player =>
      cases answer
      cases named
      exact .inr (Request.enqueues_of_role performing.allowed.1)
  | _ => exact .inl named

theorem Run.enqueue_busy (run : Run config clock discipline system)
    {caller : Nat} {id : Uuid}
    (pending : (enrolmentOf caller system.trace).pendingId? = some id) :
    ∃ call, system.calls[caller]? = some call ∧ EnqueueBusy id call := by
  obtain ⟨call, found, same⟩ :=
    Run.enqueues run (Enrolment.id_of_pending pending)
  refine ⟨call, found, same, ?_⟩
  cases ended : call.program.returned? with
  | none => rfl
  | some response =>
      have rested := Run.rested run found (by simp [ended])
      rcases rested.enrolment with none | ⟨player, indexed⟩
      · rw [enrolmentOf, none] at pending
        cases pending
      · rw [enrolmentOf, indexed] at pending
        cases pending

theorem Run.player_unique (run : Run config clock .distinctIds system)
    {player other : Player} (member : player ∈ stored system.trace)
    (member' : other ∈ stored system.trace) (same : player.id = other.id) :
    player = other := by
  have enrolled := Run.enrolled run
  obtain ⟨caller, has⟩ := enrolled.stored.mp member
  obtain ⟨caller', has'⟩ := enrolled.stored.mp member'
  have named : (enrolmentOf caller system.trace).id? = some player.id := by
    rcases has with has | has <;> rw [has] <;> rfl
  have named' : (enrolmentOf caller' system.trace).id? = some player.id := by
    rw [same]
    rcases has' with has' | has' <;> rw [has'] <;> rfl
  obtain ⟨call, found, asked⟩ := Run.enqueues run named
  obtain ⟨call', found', asked'⟩ := Run.enqueues run named'
  obtain rfl := Run.enqueued_once run player.id found found' asked asked'
  rcases has with has | has <;> rcases has' with has' | has' <;>
    rw [has] at has' <;> cases has' <;> rfl

/-- While a player is being added, nobody else has its identifier. -/
theorem Run.pending_alone (run : Run config clock .noOverlap system)
    {caller : Nat} {id : Uuid} {player : Player}
    (pending : (enrolmentOf caller system.trace).pendingId? = some id)
    (found : system.world.primary.lookup id = some player) :
    enrolmentOf caller system.trace = .stored player := by
  refine Run.invariant run (fun core trace => ∀ caller id player,
    (enrolmentOf caller trace).pendingId? = some id →
    core.primary.lookup id = some player →
    enrolmentOf caller trace = .stored player) ?_ (fun _ _ holds => holds) ?_
    caller id player pending found
  · intro caller id player pending
    cases pending
  · intro system mover request operation choice run performing holds caller
      id player pending found
    have moved := performing.enrols choice
    by_cases insertion : ∃ first, operation = .primaryInsert first
    · obtain ⟨first, rfl⟩ := insertion
      have created : enrolmentOf mover system.trace = .created first :=
        performing.allowed
      have before : (enrolmentOf mover system.trace).pendingId? =
          some first.id := by
        rw [created]
        rfl
      have after : enrolmentOf mover (system.eventOf mover choice
          (.primaryInsert first) :: system.trace) = .stored first := by
        rw [enrolmentOf, progressOf_self]
        rfl
      simp only [Core.perform, lookup_insert_eq] at found
      by_cases same : mover = caller
      · subst same
        rw [after] at pending
        cases pending
        rw [if_pos rfl] at found
        cases found
        exact after
      · rw [enrolmentOf_other same] at pending ⊢
        split at found
        · rename_i here
          rw [here] at pending
          obtain ⟨call, running, busy⟩ := Run.enqueue_busy run pending
          obtain ⟨call', running', busy'⟩ := Run.enqueue_busy run before
          exact absurd (Run.one_enqueue run _ running' running busy' busy) same
        · exact holds caller id player pending found
    · have earlier : system.world.primary.lookup id = some player :=
        (Core.lookup_before found).resolve_right fun now =>
          insertion ⟨player, now.1⟩
      by_cases same : mover = caller
      · subst same
        have kept := holds mover id player
        generalize enrolmentOf mover system.trace = before at moved kept
        generalize enrolmentOf mover (_ :: _) = after at moved pending ⊢
        generalize answer : (system.world.perform choice operation).1 = result
          at moved
        cases moved with
        | missing other =>
            cases pending
            simp [Core.perform, earlier] at answer
        | create other skillRating joinTimestamp made =>
            cases answer
            cases pending
            cases kept rfl earlier
        | store first => exact absurd ⟨first, rfl⟩ insertion
        | stay => exact kept pending earlier
        | _ => cases pending
      · rw [enrolmentOf_other same] at pending ⊢
        exact holds caller id player pending earlier

theorem Run.inserts_absent (run : Run config clock .noOverlap system)
    {caller : Nat} {request : Request} {operation : Operation}
    (performing : Performing config .noOverlap system caller request
      operation) :
    Discipline.absentInserts.performs system caller operation = true := by
  cases operation with
  | primaryInsert player =>
      have created : enrolmentOf caller system.trace = .created player :=
        performing.allowed
      refine Option.isNone_iff_eq_none.mpr
        (Option.eq_none_iff_forall_ne_some.mpr ?_)
      intro other found
      have stored := Run.pending_alone run (by rw [created]; rfl) found
      rw [created] at stored
      cases stored
  | _ => rfl

end Run

end Matchmaker
