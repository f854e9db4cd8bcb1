import Matchmaker.Protocol.Moves

namespace Matchmaker

open Concurrent

/-! Players enter the pool by the call that made them, and calls know only of
players that were put into the pool. -/

section Callers

variable {config : Config} {discipline : Discipline} {system : System}
  {caller other : Nat} {request : Request} {operation : Operation}
  {player : Player}

theorem progressOf_other (distinct : caller ≠ other) (choice : Choice) :
    progressOf other
        (system.eventOf caller choice operation :: system.trace) =
      progressOf other system.trace :=
  Contract.ghost_other distinct _ _ _

theorem phaseOf_other (distinct : caller ≠ other) (choice : Choice) :
    phaseOf other player
        (system.eventOf caller choice operation :: system.trace) =
      phaseOf other player system.trace := by
  rw [phaseOf, progressOf_other distinct]

theorem progressOf_self (choice : Choice) :
    progressOf caller
        (system.eventOf caller choice operation :: system.trace) =
      (progressOf caller system.trace).next operation
        (system.world.perform choice operation).1 :=
  Contract.ghost_self ..

theorem Performing.moves
    (performing : Performing config discipline system caller request operation)
    (player : Player) (choice : Choice) :
    Moves player operation (system.world.perform choice operation).1
      (phaseOf caller player system.trace)
      (phaseOf caller player
        (system.eventOf caller choice operation :: system.trace)) := by
  rw [phaseOf, phaseOf, progressOf_self]
  exact Matchmaker.moves player performing.allowed _

end Callers

/-- What a call comes to only by a step of a request of some kind, only calls
for requests of that kind have come to. -/
theorem Run.requested {config : Config} {clock : Clock}
    {discipline : Discipline} {system : System}
    (run : Run config clock discipline system) {select : Progress → Prop}
    {asks : Request → Prop} (start : ¬ select .start)
    (step : ∀ {system caller request operation} (choice : Choice),
      Performing config discipline system caller request operation →
      select (progressOf caller
        (system.eventOf caller choice operation :: system.trace)) →
      select (progressOf caller system.trace) ∨ asks request)
    {caller : Nat} (selected : select (progressOf caller system.trace)) :
    ∃ call, system.calls[caller]? = some call ∧ asks call.request := by
  refine @Reachable.invariant System Action (System.step config)
    (System.new clock) system _ (fun system =>
      select (progressOf caller system.trace) →
        ∃ call, system.calls[caller]? = some call ∧ asks call.request)
    run ?_ ?_ selected
  · intro initially
    exact absurd initially start
  · intro system action system' run holds permitted moved selected
    rcases System.step_cases (Run.sound run) permitted moved with
      ⟨request, task, _, _, _, rfl⟩ | ⟨instant, unixMs, _, rfl⟩ |
      ⟨mover, choice, request, operation, next, _, found, performing, rfl⟩
    · obtain ⟨call, earlier, asked⟩ := holds selected
      obtain ⟨bound, _⟩ := List.getElem?_eq_some_iff.mp earlier
      exact ⟨call, (List.getElem?_append_left bound).trans earlier, asked⟩
    · exact holds selected
    · obtain ⟨bound, _⟩ := List.getElem?_eq_some_iff.mp found
      by_cases same : mover = caller
      · subst same
        refine ⟨_, List.getElem?_set_self bound, ?_⟩
        rcases step choice performing selected with before | asked
        · obtain ⟨call, earlier, asked⟩ := holds before
          rw [found] at earlier
          cases earlier
          exact asked
        · exact asked
      · rw [progressOf_other same] at selected
        obtain ⟨call, earlier, asked⟩ := holds selected
        exact ⟨call, (List.getElem?_set_ne same).trans earlier, asked⟩

/-- Only an enqueue takes these operations. -/
def Operation.Enrols : Operation → Bool
  | .primaryContains _ | .allocate .. | .primaryInsert _ | .indexInsert _ =>
      true
  | _ => false

/-- What an operation can do to the enrolment of its caller. -/
inductive Enrols :
    (operation : Operation) → operation.Result → Enrolment → Enrolment → Prop
  | found (id : Uuid) : Enrols (.primaryContains id) true .none .none
  | missing (id : Uuid) :
      Enrols (.primaryContains id) false .none (.absent id)
  | create (id : Uuid) (skillRating : Nat) (joinTimestamp : Instant)
      (player : Player) :
      Enrols (.allocate id skillRating joinTimestamp) player (.absent id)
        (.created player)
  | store (player : Player) :
      Enrols (.primaryInsert player) () (.created player) (.stored player)
  | index (player : Player) :
      Enrols (.indexInsert player) () (.stored player) (.indexed player)
  | stay {operation : Operation} {result : operation.Result}
      (enrolment : Enrolment) (quiet : operation.Enrols = false) :
      Enrols operation result enrolment enrolment

theorem enrols {role : Role} {progress : Progress} {operation : Operation}
    (allowed : operation.Allowed role progress) (result : operation.Result) :
    Enrols operation result progress.enrolment
      (progress.enrolment.next operation result) := by
  cases operation with
  | primaryContains id =>
      rw [allowed.2]
      cases result with
      | true => exact .found id
      | false => exact .missing id
  | allocate id skillRating joinTimestamp =>
      rw [allowed.2.1]
      exact .create id skillRating joinTimestamp result
  | primaryInsert player =>
      rw [show progress.enrolment = .created player from allowed]
      exact .store player
  | indexInsert player =>
      rw [show progress.enrolment = .stored player from allowed]
      exact .index player
  | _ => exact .stay _ rfl

abbrev enrolmentOf (caller : Nat) (trace : Trace) : Enrolment :=
  (progressOf caller trace).enrolment

section Callers

variable {config : Config} {discipline : Discipline} {system : System}
  {caller other : Nat} {request : Request} {operation : Operation}

theorem enrolmentOf_other (distinct : caller ≠ other) (choice : Choice) :
    enrolmentOf other
        (system.eventOf caller choice operation :: system.trace) =
      enrolmentOf other system.trace := by
  rw [enrolmentOf, progressOf_other distinct]

theorem Performing.enrols
    (performing : Performing config discipline system caller request operation)
    (choice : Choice) :
    Enrols operation (system.world.perform choice operation).1
      (enrolmentOf caller system.trace)
      (enrolmentOf caller
        (system.eventOf caller choice operation :: system.trace)) := by
  rw [enrolmentOf, enrolmentOf, progressOf_self]
  exact Matchmaker.enrols performing.allowed _

end Callers

theorem allocated_perform (core : Core) (choice : Choice)
    (operation : Operation) :
    core.allocated ≤ (core.perform choice operation).2.allocated := by
  cases operation with
  | exchange player site =>
      simp only [Core.perform, Core.exchange]
      split <;> exact le_refl _
  | allocate => exact Nat.le_succ _
  | _ => exact le_refl _

/-- Each player was made by one call, which puts it into both stores. -/
structure Enrolled (core : Core) (trace : Trace) : Prop where
  address : ∀ {caller player},
    (enrolmentOf caller trace).player? = some player →
    player.address < core.allocated
  apart : ∀ {caller other player},
    (enrolmentOf caller trace).player? = some player →
    (enrolmentOf other trace).player? = some player → caller = other
  stored : ∀ {player}, player ∈ stored trace ↔
    ∃ caller, enrolmentOf caller trace = .stored player ∨
      enrolmentOf caller trace = .indexed player
  indexed : ∀ {player}, player ∈ indexed trace ↔
    ∃ caller, enrolmentOf caller trace = .indexed player

theorem Enrolled.new (clock : Clock) : Enrolled (Core.new clock) [] where
  address := by
    intro caller player enrolled
    cases enrolled
  apart := by
    intro caller other player enrolled
    cases enrolled
  stored := by
    intro player
    constructor
    · intro none
      cases none
    · rintro ⟨caller, enrolled | enrolled⟩ <;> cases enrolled
  indexed := by
    intro player
    constructor
    · intro none
      cases none
    · intro found
      obtain ⟨caller, enrolled⟩ := found
      cases enrolled

section Run

variable {config : Config} {clock : Clock} {discipline : Discipline}
  {system : System}

theorem Performing.enrolled_player {caller : Nat} {request : Request}
    {operation : Operation} {player : Player} {choice : Choice}
    (performing : Performing config discipline system caller request operation)
    (enrolled : (enrolmentOf caller
      (system.eventOf caller choice operation :: system.trace)).player? =
        some player) :
    (enrolmentOf caller system.trace).player? = some player ∨
      player.address = system.world.allocated ∧
        (system.world.perform choice operation).2.allocated =
          system.world.allocated + 1 := by
  have moved := performing.enrols choice
  generalize enrolmentOf caller system.trace = before at moved ⊢
  generalize enrolmentOf caller (_ :: _) = after at moved enrolled
  generalize answer : (system.world.perform choice operation).1 = result
    at moved
  cases moved with
  | create id skillRating joinTimestamp made =>
      cases enrolled
      rw [← answer]
      exact .inr ⟨rfl, rfl⟩
  | missing => cases enrolled
  | _ => exact .inl enrolled

theorem Performing.enrolled_stored {caller : Nat} {request : Request}
    {operation : Operation} {player : Player} {choice : Choice}
    (performing : Performing config discipline system caller request
      operation) :
    (enrolmentOf caller (system.eventOf caller choice operation ::
        system.trace) = .stored player ∨
      enrolmentOf caller (system.eventOf caller choice operation ::
        system.trace) = .indexed player) ↔
    (enrolmentOf caller system.trace = .stored player ∨
      enrolmentOf caller system.trace = .indexed player) ∨
      operation = .primaryInsert player := by
  have moved := performing.enrols choice
  generalize enrolmentOf caller system.trace = before at moved ⊢
  generalize enrolmentOf caller (_ :: _) = after at moved ⊢
  generalize (system.world.perform choice operation).1 = result at moved
  cases moved with
  | stay _ quiet =>
      have different : operation ≠ .primaryInsert player := by
        rintro rfl
        cases quiet
      simp [different]
  | _ => simp [eq_comm]

theorem Performing.enrolled_indexed {caller : Nat} {request : Request}
    {operation : Operation} {player : Player} {choice : Choice}
    (performing : Performing config discipline system caller request
      operation) :
    enrolmentOf caller (system.eventOf caller choice operation ::
        system.trace) = .indexed player ↔
    enrolmentOf caller system.trace = .indexed player ∨
      operation = .indexInsert player := by
  have moved := performing.enrols choice
  generalize enrolmentOf caller system.trace = before at moved ⊢
  generalize enrolmentOf caller (_ :: _) = after at moved ⊢
  generalize (system.world.perform choice operation).1 = result at moved
  cases moved with
  | stay _ quiet =>
      have different : operation ≠ .indexInsert player := by
        rintro rfl
        cases quiet
      simp [different]
  | _ => simp [eq_comm]

theorem mem_stored_cons {caller : Nat} {operation : Operation}
    {player : Player} {choice : Choice} :
    player ∈ stored (system.eventOf caller choice operation :: system.trace) ↔
      player ∈ stored system.trace ∨ operation = .primaryInsert player := by
  cases operation with
  | primaryInsert other =>
      simp [stored, storedOf, or_comm, eq_comm]
  | _ => exact ⟨.inl, fun either => either.resolve_right (by simp)⟩

theorem mem_indexed_cons {caller : Nat} {operation : Operation}
    {player : Player} {choice : Choice} :
    player ∈ indexed
        (system.eventOf caller choice operation :: system.trace) ↔
      player ∈ indexed system.trace ∨ operation = .indexInsert player := by
  cases operation with
  | indexInsert other =>
      simp [indexed, indexedOf, or_comm, eq_comm]
  | _ => exact ⟨.inl, fun either => either.resolve_right (by simp)⟩

theorem Enrolled.perform {caller : Nat} {request : Request}
    {operation : Operation}
    (enrolled : Enrolled system.world system.trace)
    (performing : Performing config discipline system caller request operation)
    (choice : Choice) :
    Enrolled (system.world.perform choice operation).2
      (system.eventOf caller choice operation :: system.trace) := by
  have others : ∀ {other}, other ≠ caller →
      enrolmentOf other
        (system.eventOf caller choice operation :: system.trace) =
      enrolmentOf other system.trace :=
    fun different => enrolmentOf_other different.symm choice
  have grows := allocated_perform system.world choice operation
  have fresh : ∀ {other player}, other ≠ caller →
      (enrolmentOf other system.trace).player? = some player →
      (enrolmentOf caller (system.eventOf caller choice operation ::
        system.trace)).player? = some player → False := by
    intro other player different theirs mine
    rcases performing.enrolled_player mine with before | ⟨made, _⟩
    · exact different (enrolled.apart theirs before)
    · exact Nat.lt_irrefl _ (made ▸ enrolled.address theirs)
  refine ⟨?_, ?_, ?_, ?_⟩
  · intro other player has
    by_cases same : other = caller
    · subst same
      rcases performing.enrolled_player has with before | ⟨made, one⟩
      · exact lt_of_lt_of_le (enrolled.address before) grows
      · omega
    · rw [others same] at has
      exact lt_of_lt_of_le (enrolled.address has) grows
  · intro first second player has has'
    by_cases same : first = caller
    · by_cases same' : second = caller
      · rw [same, same']
      · rw [others same'] at has'
        rw [same] at has
        exact (fresh same' has' has).elim
    · rw [others same] at has
      by_cases same' : second = caller
      · rw [same'] at has'
        exact (fresh same has has').elim
      · rw [others same'] at has'
        exact enrolled.apart has has'
  · intro player
    rw [mem_stored_cons, enrolled.stored]
    constructor
    · rintro (⟨other, has⟩ | insertion)
      · refine ⟨other, ?_⟩
        by_cases same : other = caller
        · subst same
          exact performing.enrolled_stored.mpr (.inl has)
        · rw [others same]
          exact has
      · exact ⟨caller, performing.enrolled_stored.mpr (.inr insertion)⟩
    · intro found
      obtain ⟨other, has⟩ := found
      by_cases same : other = caller
      · subst same
        exact (performing.enrolled_stored.mp has).imp_left fun before =>
          ⟨other, before⟩
      · rw [others same] at has
        exact .inl ⟨other, has⟩
  · intro player
    rw [mem_indexed_cons, enrolled.indexed]
    constructor
    · rintro (⟨other, has⟩ | insertion)
      · refine ⟨other, ?_⟩
        by_cases same : other = caller
        · subst same
          exact performing.enrolled_indexed.mpr (.inl has)
        · rw [others same]
          exact has
      · exact ⟨caller, performing.enrolled_indexed.mpr (.inr insertion)⟩
    · intro found
      obtain ⟨other, has⟩ := found
      by_cases same : other = caller
      · subst same
        exact (performing.enrolled_indexed.mp has).imp_left fun before =>
          ⟨other, before⟩
      · rw [others same] at has
        exact .inl ⟨other, has⟩

theorem Run.enrolled (run : Run config clock discipline system) :
    Enrolled system.world system.trace := by
  apply Run.invariant run Enrolled (.new clock)
  · intro core trace instant unixMs enrolled
    exact ⟨enrolled.address, enrolled.apart, enrolled.stored, enrolled.indexed⟩
  · intro system caller request operation choice _ performing enrolled
    exact enrolled.perform performing choice

theorem Run.stored_of_indexed (run : Run config clock discipline system)
    {player : Player} (member : player ∈ indexed system.trace) :
    player ∈ stored system.trace := by
  have enrolled := Run.enrolled run
  obtain ⟨caller, has⟩ := enrolled.indexed.mp member
  exact enrolled.stored.mpr ⟨caller, .inr has⟩

theorem Run.stored_old (run : Run config clock discipline system)
    {player : Player} (member : player ∈ stored system.trace) :
    player.address < system.world.allocated := by
  have enrolled := Run.enrolled run
  obtain ⟨caller, has⟩ := enrolled.stored.mp member
  have made : (enrolmentOf caller system.trace).player? = some player := by
    rcases has with has | has <;> rw [has] <;> rfl
  exact enrolled.address made

theorem Run.stored_of_primary (run : Run config clock discipline system)
    {id : Uuid} {player : Player}
    (found : system.world.primary.lookup id = some player) :
    player ∈ stored system.trace := by
  refine Run.invariant run (fun core trace =>
    core.primary.lookup id = some player → player ∈ stored trace)
    ?_ (fun _ _ holds => holds) ?_ found
  · intro none
    cases none
  · intro system caller request operation choice _ performing holds found
    rw [mem_stored_cons]
    rcases Core.lookup_before found with earlier | now
    · exact .inl (holds earlier)
    · exact .inr now.1

theorem Run.indexed_of_index (run : Run config clock discipline system)
    {key : Nat × Uuid} {player : Player}
    (found : system.world.index[key]? = some player) :
    player ∈ indexed system.trace := by
  refine Run.invariant run (fun core trace =>
    core.index[key]? = some player → player ∈ indexed trace)
    ?_ (fun _ _ holds => holds) ?_ found
  · intro none
    simp [Core.new] at none
  · intro system caller request operation choice _ performing holds found
    rw [mem_indexed_cons]
    rcases Core.index_before found with earlier | now
    · exact .inl (holds earlier)
    · exact .inr now.1

theorem Run.stored_of_learnt (run : Run config clock discipline system)
    (choice : Choice) (operation : Operation) {player : Player}
    (member : player ∈
      operation.learnt (system.world.perform choice operation).1) :
    player ∈ stored system.trace := by
  cases operation with
  | primaryGet id =>
      exact Run.stored_of_primary run (Option.mem_toList.mp member)
  | primaryRemove id =>
      exact Run.stored_of_primary run (Option.mem_toList.mp member)
  | primaryIter =>
      obtain ⟨id, found⟩ :=
        Primary.mem_players.mp ((choice.walk_perm _).mem_iff.mp member)
      exact Run.stored_of_primary run found
  | indexRange lower upper =>
      obtain ⟨key, found, _⟩ := mem_indexRange.mp member
      exact Run.stored_of_indexed run (Run.indexed_of_index run found)
  | _ => cases member

theorem Run.stored_of_known (run : Run config clock discipline system)
    {caller : Nat} {player : Player}
    (known : player ∈ (progressOf caller system.trace).known) :
    player ∈ stored system.trace := by
  refine Run.invariant run (fun _ trace =>
    player ∈ (progressOf caller trace).known → player ∈ stored trace)
    ?_ (fun _ _ holds => holds) ?_ known
  · intro none
    cases none
  · intro system mover request operation choice run performing holds known
    rw [mem_stored_cons]
    by_cases same : mover = caller
    · subst same
      rw [progressOf_self] at known
      rcases List.mem_append.mp known with earlier | learnt
      · exact .inl (holds earlier)
      · exact .inl (Run.stored_of_learnt run choice operation learnt)
    · rw [progressOf_other same] at known
      exact .inl (holds known)

theorem known_of_leaves_idle {role : Role} {progress : Progress}
    {operation : Operation} {player : Player}
    (allowed : operation.Allowed role progress) (result : operation.Result)
    (idle : progress.phase player = .idle)
    (left : (progress.phase player).next player operation result ≠ .idle) :
    player ∈ progress.known := by
  have moved := moves player allowed result
  generalize (progress.phase player).next player operation result = after
    at moved left
  generalize before : progress.phase player = phase at moved idle
  cases moved with
  | claim workerId nowMs => exact allowed.2.1
  | evict => exact allowed.2.1
  | suspect claimTs => exact allowed.2.1
  | stay _ _ => exact absurd idle left
  | _ => cases idle

theorem Run.stored_of_phase (run : Run config clock discipline system)
    {caller : Nat} {player : Player}
    (left : phaseOf caller player system.trace ≠ .idle) :
    player ∈ stored system.trace := by
  refine Run.invariant run (fun _ trace =>
    phaseOf caller player trace ≠ .idle → player ∈ stored trace)
    ?_ (fun _ _ holds => holds) ?_ left
  · intro moved
    exact absurd rfl moved
  · intro system mover request operation choice run performing holds left
    rw [mem_stored_cons]
    left
    by_cases same : mover = caller
    · subst same
      by_cases idle : phaseOf mover player system.trace = .idle
      · rw [phaseOf, progressOf_self] at left
        exact Run.stored_of_known run
          (known_of_leaves_idle performing.allowed _ idle left)
      · exact holds idle
    · rw [phaseOf_other same] at left
      exact holds left

theorem Run.stored_of_exchange (run : Run config clock discipline system)
    {caller : Nat} {request : Request} {player : Player} {site : Exchange}
    (performing : Performing config discipline system caller request
      (.exchange player site)) : player ∈ stored system.trace := by
  have allowed : site.Allowed player (request.role config)
      (progressOf caller system.trace) := performing.allowed
  have busy (phase : Phase) (reached : phaseOf caller player system.trace =
      phase) (moved : phase ≠ .idle) : player ∈ stored system.trace :=
    Run.stored_of_phase run (reached ▸ moved)
  cases site with
  | tryClaim workerId nowMs => exact Run.stored_of_known run allowed.2.1
  | tryEvict => exact Run.stored_of_known run allowed.2.1
  | releaseClaim => exact busy _ allowed (by simp)
  | markMatched => exact busy _ allowed (by simp)
  | reaperReset nowMs =>
      obtain ⟨timeout, claimTs, _, _, suspected, _⟩ := allowed
      exact busy _ suspected (by simp)

theorem transfers_cons_cases {event : Event memory} {trace : Trace}
    {transfer : Transfer} (member : transfer ∈ transfers (event :: trace)) :
    transfer ∈ transfers trace ∨
      event = ⟨transfer.caller, .exchange transfer.player transfer.site,
        true⟩ := by
  obtain ⟨caller, operation, result⟩ := event
  cases operation with
  | exchange player site =>
      cases result with
      | true =>
          rcases List.mem_cons.mp member with rfl | earlier
          · exact .inr rfl
          · exact .inl earlier
      | false => exact .inl member
  | _ => exact .inl member

theorem Run.stored_of_transfer (run : Run config clock discipline system)
    {transfer : Transfer} (member : transfer ∈ transfers system.trace) :
    transfer.player ∈ stored system.trace := by
  refine Run.invariant run (fun _ trace => transfer ∈ transfers trace →
    transfer.player ∈ stored trace) ?_ (fun _ _ holds => holds) ?_ member
  · intro none
    cases none
  · intro system mover request operation choice run performing holds member
    rw [mem_stored_cons]
    left
    rcases transfers_cons_cases member with earlier | succeeded
    · exact holds earlier
    · obtain rfl : operation = _ := congrArg Event.operation succeeded
      exact Run.stored_of_exchange run performing

end Run

end Matchmaker
