import Matchmaker.Protocol.Conformance
import Matchmaker.Stores

namespace Matchmaker

open Concurrent

/-! Runs of the service, and the facts that hold in all of them. -/

/-- The operation that a call is about to perform. -/
def System.nextOperation (system : System) (caller : Nat) : Option Operation :=
  match system.calls[caller]? with
  | some ⟨_, .perform operation _⟩ => some operation
  | _ => none

/-- A condition on the calls that are started and on the operations that are
performed, in the state before the step. -/
structure Discipline where
  starts : System → Request → Bool
  performs : System → Nat → Operation → Bool

def Discipline.free : Discipline where
  starts := fun _ _ => true
  performs := fun _ _ _ => true

def Discipline.permits (discipline : Discipline) (system : System) :
    Action → Bool
  | .start request => discipline.starts system request
  | .step caller _ =>
      (system.nextOperation caller).all (discipline.performs system caller)
  | .tick .. => true

/-- The system is reached in a run all of whose steps meet the condition. -/
abbrev Run (config : Config) (clock : Clock) (discipline : Discipline) :
    System → Prop :=
  Reachable (System.step config) (System.new clock)
    fun system action => discipline.permits system action = true

/-- Play a schedule from the start, checking the condition on the way. -/
def play (config : Config) (clock : Clock) (discipline : Discipline)
    (actions : List Action) : Option System :=
  schedule (System.step config) discipline.permits (System.new clock) actions

theorem Run.played {config : Config} {clock : Clock} {discipline : Discipline}
    {actions : List Action} {system : System}
    (ran : play config clock discipline actions = some system) :
    Run config clock discipline system :=
  Reachable.schedule (fun _ _ permitted => permitted) .start ran

theorem exists_run_of_play {config : Config} {clock : Clock}
    {discipline : Discipline} {check : System → Bool} (actions : List Action)
    (ran : (play config clock discipline actions).any check = true) :
    ∃ system, Run config clock discipline system ∧ check system = true := by
  cases played : play config clock discipline actions with
  | none => simp [played] at ran
  | some system =>
      rw [played] at ran
      exact ⟨system, Run.played played, ran⟩

def turns (caller count : Nat) : List Action :=
  List.replicate count
    (.step caller { keptAlive := true, uuid := 0, arrange := id })

/-- Enqueue players of one rating, one after the other, from an empty core.
Their identifiers are counted from one. -/
def arrivals (count skillRating : Nat) : List Action :=
  (List.range count).flatMap fun caller =>
    .start (.enqueue (Fin.ofNat _ (caller + 1)) skillRating) :: turns caller 8

def Discipline.both (first second : Discipline) : Discipline where
  starts := fun system request =>
    first.starts system request && second.starts system request
  performs := fun system caller operation =>
    first.performs system caller operation &&
      second.performs system caller operation

/-- A call is about to perform an operation, within the protocol and the
condition of the run. -/
structure Performing (config : Config) (discipline : Discipline)
    (system : System) (caller : Nat) (request : Request)
    (operation : Operation) : Prop where
  next : ∃ next, system.calls[caller]? = some ⟨request, .perform operation next⟩
  allowed : operation.Allowed (request.role config)
    (progressOf caller system.trace)
  permitted : discipline.performs system caller operation = true

section Both

variable {config : Config} {first second : Discipline} {system : System}
  {caller : Nat} {request : Request} {operation : Operation}

theorem Performing.left
    (performing : Performing config (first.both second) system caller request
      operation) :
    Performing config first system caller request operation :=
  ⟨performing.next, performing.allowed,
    (Bool.and_eq_true_iff.mp performing.permitted).1⟩

theorem Performing.right
    (performing : Performing config (first.both second) system caller request
      operation) :
    Performing config second system caller request operation :=
  ⟨performing.next, performing.allowed,
    (Bool.and_eq_true_iff.mp performing.permitted).2⟩

end Both

abbrev System.eventOf (system : System) (caller : Nat) (choice : Choice)
    (operation : Operation) : Event memory :=
  ⟨caller, operation, (system.world.perform choice operation).1⟩

/-- What every run keeps, whatever its condition. -/
structure Sound (config : Config) (system : System) : Prop where
  traced : system.Traced
  follows : system.Follows protocol (Request.role config) Finished
  keyed : WellKeyed system.world
  enrolled : ∀ {caller player},
    (progressOf caller system.trace).enrolment.player? = some player →
    player.skillRating ≤ maxSkillRating
  indexed : ∀ {key : Nat × Uuid} {player : Player},
    system.world.index[key]? = some player →
    player.skillRating ≤ maxSkillRating

theorem Sound.new (config : Config) (clock : Clock) :
    Sound config (System.new clock) where
  traced := by
    intro event member
    cases member
  follows := by
    intro caller call found
    simp [System.new] at found
  keyed := .new clock
  enrolled := by
    intro caller player enrolled
    cases enrolled
  indexed := by
    intro key player found
    simp [System.new, Core.new] at found

theorem Sound.credible {config : Config} {system : System}
    (sound : Sound config system) (choice : Choice) (operation : Operation) :
    operation.Credible (system.world.perform choice operation).1 := by
  cases operation with
  | allocate id skillRating joinTimestamp => exact ⟨rfl, rfl⟩
  | primaryGet id => exact fun _ found => sound.keyed.primary found
  | primaryRemove id => exact fun _ found => sound.keyed.primary found
  | primaryIter =>
      exact (choice.walk_perm _).nodup_iff.mpr sound.keyed.nodup_players
  | indexRange lower upper =>
      refine ⟨?_, ?_⟩
      · exact sound.keyed.nodup_values.sublist (List.filter_sublist.map _)
      · intro player member
        obtain ⟨key, found, _⟩ := mem_indexRange.mp member
        exact sound.indexed found
  | _ => exact trivial

theorem Enrolment.next_player {role : Role} {progress : Progress}
    {operation : Operation} {result : operation.Result} {player : Player}
    (allowed : operation.Allowed role progress)
    (credible : operation.Credible result)
    (enrolled : (progress.enrolment.next operation result).player? =
      some player) :
    progress.enrolment.player? = some player ∨
      player.skillRating ≤ maxSkillRating := by
  cases operation with
  | primaryContains id =>
      cases result with
      | true => exact .inl enrolled
      | false => cases enrolled
  | allocate id skillRating joinTimestamp =>
      cases enrolled
      exact .inr (credible.2 ▸ allowed.2.2)
  | primaryInsert other =>
      have created : progress.enrolment = .created other := allowed
      rw [created]
      exact .inl enrolled
  | indexInsert other =>
      have inserted : progress.enrolment = .stored other := allowed
      rw [inserted]
      exact .inl enrolled
  | _ => exact .inl enrolled

theorem System.performing {config : Config} {discipline : Discipline}
    {system : System} {caller : Nat} {choice : Choice} {request : Request}
    {operation : Operation} {next : operation.Result → Task Response}
    (sound : Sound config system)
    (permitted : discipline.permits system (.step caller choice) = true)
    (found : system.calls[caller]? =
      some ⟨request, .perform operation next⟩) :
    Performing config discipline system caller request operation := by
  refine ⟨⟨next, found⟩, (sound.follows caller _ found).1, ?_⟩
  simpa [Discipline.permits, System.nextOperation, found] using permitted

theorem System.step_cases {config : Config} {discipline : Discipline}
    {system system' : System} {action : Action}
    (sound : Sound config system)
    (permitted : discipline.permits system action = true)
    (moved : system.step config action = some system') :
    (∃ request task, action = .start request ∧
      discipline.starts system request = true ∧
      system.program config request = some task ∧
      system' = system.launch request task) ∨
    (∃ instant unixMs, action = .tick instant unixMs ∧
      system' = { system with
        world := system.world.advanceClock instant unixMs }) ∨
    ∃ caller choice request operation next,
      action = .step caller choice ∧
      system.calls[caller]? = some ⟨request, .perform operation next⟩ ∧
      Performing config discipline system caller request operation ∧
      system' = {
        world := (system.world.perform choice operation).2
        calls := system.calls.set caller
          ⟨request, next (system.world.perform choice operation).1⟩
        trace := system.eventOf caller choice operation :: system.trace } := by
  cases action with
  | start request =>
      obtain ⟨task, launched, rfl⟩ := Option.map_eq_some_iff.mp moved
      exact .inl ⟨request, task, rfl, permitted, launched, rfl⟩
  | tick instant unixMs =>
      exact .inr (.inl ⟨instant, unixMs, rfl, (Option.some.inj moved).symm⟩)
  | step caller choice =>
      obtain ⟨request, operation, next, found, rfl⟩ :=
        Pool.advance_cases moved
      exact .inr (.inr ⟨caller, choice, request, operation, next, rfl, found,
        System.performing sound permitted found, rfl⟩)

theorem Sound.advance {config : Config} {system system' : System}
    {caller : Nat} {choice : Choice} (sound : Sound config system)
    (moved : system.advance caller choice = some system') :
    Sound config system' := by
  have traced := sound.traced.advance moved
  have follows := sound.follows.advance moved (sound.credible choice)
  obtain ⟨request, operation, next, found, rfl⟩ := Pool.advance_cases moved
  have allowed : operation.Allowed (request.role config)
      (progressOf caller system.trace) := (sound.follows caller _ found).1
  refine ⟨traced, follows, sound.keyed.perform choice operation, ?_, ?_⟩
  · intro other player enrolled
    by_cases same : caller = other
    · subst same
      rw [progressOf, Contract.ghost_self] at enrolled
      rcases Enrolment.next_player allowed (sound.credible choice operation)
        enrolled with earlier | bounded
      · exact sound.enrolled earlier
      · exact bounded
    · rw [progressOf, Contract.ghost_other same] at enrolled
      exact sound.enrolled enrolled
  · intro key player inIndex
    rcases Core.index_before inIndex with earlier | ⟨rfl, _⟩
    · exact sound.indexed earlier
    · have enrolment : (progressOf caller system.trace).enrolment =
          .stored player := allowed
      exact sound.enrolled (by rw [enrolment]; rfl)

theorem Run.sound {config : Config} {clock : Clock} {discipline : Discipline}
    {system : System} (run : Run config clock discipline system) :
    Sound config system := by
  apply Reachable.invariant run (.new config clock)
  intro system action system' _ sound _ moved
  cases action with
  | start request =>
      obtain ⟨task, launched, rfl⟩ := Option.map_eq_some_iff.mp moved
      exact ⟨sound.traced.launch request task,
        sound.follows.launch sound.traced (System.obeys_program launched),
        sound.keyed, sound.enrolled, sound.indexed⟩
  | tick instant unixMs =>
      cases moved
      exact ⟨sound.traced, sound.follows,
        ⟨sound.keyed.primary, sound.keyed.index⟩, sound.enrolled,
        sound.indexed⟩
  | step caller choice => exact sound.advance moved

/-- The calls of a run follow every contract that their programs obey, if what
they perform in the run is answered as the contract says. -/
theorem Run.follows_performing {config : Config} {clock : Clock}
    {discipline : Discipline} {system : System}
    (run : Run config clock discipline system)
    {contract : Contract memory} {role : Request → contract.Role}
    {post : Request → Response → contract.Ghost → Prop}
    (obeys : ∀ {system : System} {request task},
      system.program config request = some task →
      contract.Obeys (role request) (post request) task contract.initial)
    (credible : ∀ {system : System} {caller request operation} choice,
      Run config clock discipline system →
      Performing config discipline system caller request operation →
      contract.Credible operation
        (system.world.perform choice operation).1) :
    system.Follows contract role post := by
  apply @Reachable.invariant System Action (System.step config)
    (System.new clock) system _ (fun system =>
      system.Follows contract role post) run
  · intro caller call found
    simp [System.new] at found
  · intro system action system' run follows permitted moved
    cases action with
    | start request =>
        obtain ⟨task, launched, rfl⟩ := Option.map_eq_some_iff.mp moved
        exact follows.launch (Run.sound run).traced (obeys launched)
    | tick instant unixMs =>
        cases moved
        exact follows
    | step caller choice =>
        apply follows.advance_next moved
        intro request operation next found
        exact credible choice run
          (System.performing (Run.sound run) permitted found)

theorem Run.follows_sound {config : Config} {clock : Clock}
    {discipline : Discipline} {system : System}
    (run : Run config clock discipline system)
    {contract : Contract memory} {role : Request → contract.Role}
    {post : Request → Response → contract.Ghost → Prop}
    (obeys : ∀ {system : System} {request task},
      system.program config request = some task →
      contract.Obeys (role request) (post request) task contract.initial)
    (credible : ∀ {system : System}, Sound config system →
      ∀ (choice : Choice) (operation : Operation), contract.Credible operation
        (system.world.perform choice operation).1) :
    system.Follows contract role post :=
  Run.follows_performing run obeys fun choice before _ =>
    credible (Run.sound before) choice _

theorem Run.follows {config : Config} {clock : Clock} {discipline : Discipline}
    {system : System} (run : Run config clock discipline system)
    {contract : Contract memory} {role : Request → contract.Role}
    {post : Request → Response → contract.Ghost → Prop}
    (obeys : ∀ {system : System} {request task},
      system.program config request = some task →
      contract.Obeys (role request) (post request) task contract.initial)
    (credible : ∀ (core : Core) (choice : Choice) (operation : Operation),
      contract.Credible operation (core.perform choice operation).1) :
    system.Follows contract role post :=
  Run.follows_sound run obeys fun _ => credible _

theorem Run.mono {config : Config} {clock : Clock}
    {discipline weaker : Discipline} {system : System}
    (run : Run config clock discipline system)
    (starts : ∀ system request, discipline.starts system request →
      weaker.starts system request)
    (performs : ∀ {system caller request operation},
      Run config clock discipline system →
      Performing config discipline system caller request operation →
      weaker.performs system caller operation) :
    Run config clock weaker system := by
  apply Reachable.mono run
  intro before action reached permitted
  cases action with
  | start request => exact starts before request permitted
  | tick instant unixMs => rfl
  | step caller choice =>
      rw [Discipline.permits]
      cases next : before.nextOperation caller with
      | none => rfl
      | some operation =>
          unfold System.nextOperation at next
          split at next
          · rename_i request _ _ found
            cases next
            exact performs reached
              (System.performing (Run.sound reached) permitted found)
          · cases next

section Both

variable {config : Config} {clock : Clock} {first second : Discipline}
  {system : System}

theorem Run.left (run : Run config clock (first.both second) system) :
    Run config clock first system :=
  Run.mono run (fun _ _ both => (Bool.and_eq_true_iff.mp both).1)
    fun _ performing => performing.left.permitted

theorem Run.right (run : Run config clock (first.both second) system) :
    Run config clock second system :=
  Run.mono run (fun _ _ both => (Bool.and_eq_true_iff.mp both).2)
    fun _ performing => performing.right.permitted

end Both

theorem Run.middle {config : Config} {clock : Clock}
    {first second third fourth : Discipline} {system : System}
    (run : Run config clock (.both (.both first second) (.both third fourth))
      system) : Run config clock (.both second third) system := by
  apply Run.mono run
  · intro system request started
    obtain ⟨former, latter⟩ := Bool.and_eq_true_iff.mp started
    exact Bool.and_eq_true_iff.mpr ⟨(Bool.and_eq_true_iff.mp former).2,
      (Bool.and_eq_true_iff.mp latter).1⟩
  · intro system caller request operation _ performing
    exact Bool.and_eq_true_iff.mpr ⟨performing.left.right.permitted,
      performing.right.left.permitted⟩

/-- Invariant rule for what depends on the memory and the trace only. -/
theorem Run.invariant {config : Config} {clock : Clock}
    {discipline : Discipline} {system : System}
    (run : Run config clock discipline system)
    (property : Core → Trace → Prop)
    (initially : property (Core.new clock) [])
    (ticked : ∀ {core trace} instant unixMs, property core trace →
      property (core.advanceClock instant unixMs) trace)
    (performed : ∀ {system : System} {caller request operation} choice,
      Run config clock discipline system →
      Performing config discipline system caller request operation →
      property system.world system.trace →
      property (system.world.perform choice operation).2
        (system.eventOf caller choice operation :: system.trace)) :
    property system.world system.trace := by
  apply @Reachable.invariant System Action (System.step config)
    (System.new clock) system _
    (fun system => property system.world system.trace) run initially
  intro system action system' run holds permitted moved
  rcases System.step_cases (Run.sound run) permitted moved with
    ⟨request, task, _, _, _, rfl⟩ | ⟨instant, unixMs, _, rfl⟩ |
    ⟨caller, choice, request, operation, next, _, _, performing, rfl⟩
  · exact holds
  · exact ticked instant unixMs holds
  · exact performed choice run performing holds

/-- If no selected call is started while there is another one, and no step
selects a call, then there is always one at most. -/
theorem Run.exclusive {config : Config} {clock : Clock}
    {discipline : Discipline} {system : System}
    (run : Run config clock discipline system) {select : SystemCall → Prop}
    (back : ∀ request operation next result, select ⟨request, next result⟩ →
      select ⟨request, .perform operation next⟩)
    (idle : ∀ {system : System} {request task},
      discipline.starts system request = true →
      system.program config request = some task → select ⟨request, task⟩ →
      ∀ call ∈ system.calls, ¬ select call) :
    system.Exclusive select := by
  apply @Reachable.invariant System Action (System.step config)
    (System.new clock) system _
    (fun system => system.Exclusive select) run
  · intro first second call call' found
    simp [System.new] at found
  · intro system action system' _ exclusive permitted moved
    cases action with
    | start request =>
        obtain ⟨task, launched, rfl⟩ := Option.map_eq_some_iff.mp moved
        exact exclusive.launch (idle permitted launched)
    | tick instant unixMs =>
        cases moved
        exact exclusive
    | step caller choice => exact exclusive.advance back moved

end Matchmaker
