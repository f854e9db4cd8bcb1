import Matchmaker.Safety.Statistics
import Matchmaker.Service.Seats

namespace Matchmaker

open Concurrent

/-! The shutdown: which calls the tasks have in progress, and how soon they
exit. -/

variable {Signal : Type}

namespace Service

/-- The calls of the tasks are those that the tasks are running. -/
structure Manned (service : Service Signal) : Prop where
  calls : ∀ {caller : Nat} {call : SystemCall} {task : Nat},
    service.system.calls[caller]? = some call →
    call.request.task = some task → call.program.returned?.isSome = true ∨
      service.tasks[task]? = some (.running caller)
  running : ∀ {task caller : Nat},
    service.tasks[task]? = some (TaskPhase.running caller) →
    ∃ call, service.system.calls[caller]? = some call ∧
      call.request.task = some task

section Step

variable {config : Config} {service service' : Service Signal} {task : Nat}
  {phase phase' : TaskPhase}

/-- The task is not in the middle of its work. -/
def Free (service : Service Signal) (phase : TaskPhase) : Prop :=
  ∀ caller, phase = .running caller → service.returned caller = true

theorem returned_of_found {caller : Nat} {call : SystemCall}
    (finished : service.returned caller = true)
    (found : service.system.calls[caller]? = some call) :
    call.program.returned?.isSome = true := by
  rw [returned, found] at finished
  exact finished

theorem Manned.move (manned : service.Manned)
    (found : service.tasks[task]? = some phase) (free : service.Free phase)
    (tasks : service'.tasks = service.tasks.set task phase')
    (system : service'.system = service.system)
    (idle : ∀ caller, phase' ≠ .running caller) : service'.Manned where
  calls := by
    intro caller call other there own
    rw [system] at there
    rcases manned.calls there own with returned | running
    · exact .inl returned
    · by_cases same : other = task
      · subst same
        cases found.symm.trans running
        exact .inl (returned_of_found (free caller rfl) there)
      · right
        rw [tasks, List.getElem?_set_ne (Ne.symm same)]
        exact running
  running := by
    intro other caller there
    rw [tasks] at there
    rw [system]
    by_cases same : other = task
    · subst same
      rw [getElem?_set_found found] at there
      exact absurd (Option.some.inj there) (idle caller)
    · rw [List.getElem?_set_ne (Ne.symm same)] at there
      exact manned.running there

theorem Manned.begin {request : Request} {program : Task Response}
    (manned : service.Manned) (found : service.tasks[task]? = some phase)
    (free : service.Free phase) (own : request.task = some task)
    (tasks : service'.tasks =
      service.tasks.set task (.running service.system.calls.length))
    (system : service'.system = service.system.launch request program) :
    service'.Manned where
  calls := by
    intro caller call other there mine
    rw [system] at there
    rw [tasks]
    rcases Pool.launch_cases there with old | ⟨rfl, rfl⟩
    · rcases manned.calls old mine with returned | running
      · exact .inl returned
      · by_cases same : other = task
        · subst same
          cases found.symm.trans running
          exact .inl (returned_of_found (free caller rfl) old)
        · right
          rw [List.getElem?_set_ne (Ne.symm same)]
          exact running
    · cases own.symm.trans mine
      exact .inr (getElem?_set_found found)
  running := by
    intro other caller there
    rw [tasks] at there
    rw [system]
    by_cases same : other = task
    · subst same
      rw [getElem?_set_found found] at there
      cases there
      exact ⟨_, List.getElem?_concat_length, own⟩
    · rw [List.getElem?_set_ne (Ne.symm same)] at there
      obtain ⟨call, old, mine⟩ := manned.running there
      obtain ⟨bound, _⟩ := List.getElem?_eq_some_iff.mp old
      exact ⟨call, (List.getElem?_append_left bound).trans old, mine⟩

theorem Manned.requested {request : Request} {program : Task Response}
    (manned : service.Manned) (outside : request.task = none)
    (tasks : service'.tasks = service.tasks)
    (system : service'.system = service.system.launch request program) :
    service'.Manned where
  calls := by
    intro caller call task there own
    rw [system] at there
    rw [tasks]
    rcases Pool.launch_cases there with old | ⟨rfl, rfl⟩
    · exact manned.calls old own
    · cases outside.symm.trans own
  running := by
    intro task caller there
    rw [tasks] at there
    rw [system]
    obtain ⟨call, old, own⟩ := manned.running there
    obtain ⟨bound, _⟩ := List.getElem?_eq_some_iff.mp old
    exact ⟨call, (List.getElem?_append_left bound).trans old, own⟩

theorem Manned.accessed {caller : Nat} {choice : Choice} {system : System}
    (manned : service.Manned)
    (moved : service.system.step config (.step caller choice) = some system) :
    Manned { service with system } := by
  obtain ⟨request, operation, next, found, rfl⟩ := Pool.advance_cases moved
  constructor
  · intro other call task there own
    by_cases same : caller = other
    · subst same
      cases (getElem?_set_found found).symm.trans there
      exact .inr ((manned.calls found own).resolve_left nofun)
    · rw [List.getElem?_set_ne same] at there
      exact manned.calls there own
  · intro task other there
    obtain ⟨call, old, own⟩ := manned.running there
    by_cases same : caller = other
    · subst same
      cases found.symm.trans old
      exact ⟨_, getElem?_set_found found, own⟩
    · exact ⟨call, (List.getElem?_set_ne same).trans old, own⟩

variable [Notify Signal]

theorem Manned.polled {request : Request} (manned : service.Manned)
    (own : request.task = some task)
    (found : service.tasks[task]? = some phase)
    (polled : Polled config service task request (task ≠ 0) phase service') :
    service'.Manned := by
  cases polled with
  | finished caller finished =>
      refine manned.move found ?_ rfl rfl fun _ => nofun
      rintro _ ⟨⟩
      exact finished
  | woken queued ready began =>
      obtain ⟨program, _, rfl⟩ := Option.map_eq_some_iff.mp began
      exact manned.begin found (fun _ => nofun) own rfl rfl
  | ticked queued began =>
      obtain ⟨program, _, rfl⟩ := Option.map_eq_some_iff.mp began
      exact manned.begin found (fun _ => nofun) own rfl rfl
  | _ => exact manned.move found (fun _ => nofun) rfl rfl fun _ => nofun

end Step

theorem manned_spawnAll [Notify Signal] (config : Config) (clock : Clock) :
    (spawnAll config clock : Service Signal).Manned where
  calls := nofun
  running := by
    intro task caller found
    cases (List.mem_replicate.mp (List.mem_of_getElem? found)).2

end Service

theorem ServiceRun.manned [Notify Signal] {config : Config} {clock : Clock}
    {service : Service Signal} (run : ServiceRun config clock service) :
    service.Manned := by
  apply run.invariant Service.Manned (Service.manned_spawnAll config clock)
  intro service service' _ manned stepped
  cases stepped with
  | requested outside began =>
      obtain ⟨program, _, rfl⟩ := Option.map_eq_some_iff.mp began
      exact manned.requested outside rfl rfl
  | accessed free moved => exact manned.accessed moved
  | elapsed moved =>
      cases moved
      exact ⟨manned.calls, manned.running⟩
  | signalled | cancelled => exact ⟨manned.calls, manned.running⟩
  | again => exact manned
  | polled own found polled => exact manned.polled own found polled

theorem workerState_isSome {workerId : Nat} {calls : List SystemCall}
    (done : ∀ call ∈ calls, call.request = .attemptMatch workerId →
      ∃ outcome state, call.program = .pure (.attemptMatch outcome state)) :
    (workerState workerId calls).isSome = true := by
  unfold workerState
  refine List.foldlRecOn (motive := fun state => Option.isSome state = true)
    calls _ rfl ?_
  intro state known call member
  split
  · rename_i own
    obtain ⟨outcome, final, returned⟩ := done call member own
    rw [returned]
    rfl
  · exact known

section Run

variable [Notify Signal] {config : Config} {clock : Clock}
  {service : Service Signal}

/-- A task that has nothing in progress can begin its work. -/
theorem ServiceRun.starts (run : ServiceRun config clock service) {task : Nat}
    {phase : TaskPhase} (found : service.tasks[task]? = some phase)
    (idle : ∀ caller, phase ≠ .running caller) {request : Request}
    (own : request.task = some task) :
    ∃ system, service.system.step config (.start request) = some system := by
  have done : ∀ call ∈ service.system.calls, call.request = request →
      ∃ response, call.program = .pure response ∧
        ∃ progress, Finished request response progress := by
    intro call member same
    obtain ⟨caller, there⟩ := List.getElem?_of_mem member
    rcases run.manned.calls there (same ▸ own) with returned | running
    · obtain ⟨request', program⟩ := call
      cases program with
      | perform operation next => cases returned
      | pure response =>
          cases same
          exact ⟨response, rfl, _, (Run.sound run.run).follows.returned there⟩
    · exact absurd (Option.some.inj (found.symm.trans running)) (idle caller)
  cases request with
  | enqueue | cancel => cases own
  | attemptMatch workerId =>
      have idle : (workerState workerId service.system.calls).isSome = true := by
        apply workerState_isSome
        intro call member same
        obtain ⟨response, returned, progress, finished⟩ := done call member same
        cases response with
        | attemptMatch outcome state => exact ⟨outcome, state, returned⟩
        | _ => cases finished
      obtain ⟨state, known⟩ := Option.isSome_iff_exists.mp idle
      rw [System.step, System.program, known]
      exact ⟨_, rfl⟩
  | reaperTick =>
      have idle : reaperIdle service.system.calls = true := by
        apply List.all_eq_true.mpr
        intro call member
        by_cases same : call.request = .reaperTick
        · obtain ⟨response, returned, _⟩ := done call member same
          simp [returned, Program.returned?]
        · simp [same]
      rw [System.step, System.program, if_pos idle]
      exact ⟨_, rfl⟩

theorem ServiceRun.pollable (run : ServiceRun config clock service)
    {task : Nat} {phase : TaskPhase}
    (found : service.tasks[task]? = some phase) (inside : phase ≠ .exited)
    (free : service.Free phase) {request : Request}
    (own : request.task = some task) (wakes elapsed : Bool) :
    (service.pollTask config task request wakes elapsed).isSome = true := by
  unfold Service.pollTask
  rw [found]
  cases phase with
  | exited => exact absurd rfl inside
  | starting | asleep => rfl
  | atShutdown queued =>
      dsimp only
      split
      · rfl
      · split <;> rfl
  | atNotified queued =>
      obtain ⟨system, began⟩ := run.starts found (fun _ => nofun) own
      dsimp only
      split
      · rw [Service.begin, began]
        rfl
      · rfl
  | atTick queued =>
      obtain ⟨system, began⟩ := run.starts found (fun _ => nofun) own
      dsimp only
      split
      · rw [Service.begin, began]
        rfl
      · rfl
  | running caller =>
      dsimp only
      rw [if_pos (free caller rfl)]
      rfl

/-- A task can be polled, or the call it has in progress can go on. -/
def Service.Unstuck (config : Config) (service : Service Signal) (task : Nat)
    (phase : TaskPhase) : Prop :=
  (∀ elapsed, (service.step config (.poll task elapsed)).isSome = true) ∨
    ∃ caller, phase = .running caller ∧
      ((∀ choice, (service.step config (.access caller choice)).isSome = true) ∨
        (service.step config (.notifyOne caller)).isSome = true)

theorem ServiceRun.unstuck (run : ServiceRun config clock service)
    {task : Nat} {phase : TaskPhase}
    (found : service.tasks[task]? = some phase) (inside : phase ≠ .exited) :
    service.Unstuck config task phase := by
  by_cases free : service.Free phase
  · left
    intro elapsed
    rw [Service.step]
    split
    · rename_i reaper
      subst reaper
      exact run.pollable found inside free rfl false elapsed
    · exact run.pollable found inside free rfl true elapsed
  · right
    obtain ⟨caller, pending⟩ := not_forall.mp free
    obtain ⟨rfl, unfinished⟩ := Classical.not_imp.mp pending
    refine ⟨caller, rfl, ?_⟩
    obtain ⟨⟨request, program⟩, there, _⟩ := run.manned.running found
    cases program with
    | pure response =>
        rw [Service.returned, there] at unfinished
        exact absurd rfl unfinished
    | perform operation next =>
        by_cases notifies : service.notifies caller = true
        · right
          rw [Service.step, if_pos notifies]
          rfl
        · left
          intro choice
          rw [Service.step, if_neg notifies, System.step, Pool.advance, there]
          rfl

end Run

/-- How many polls a task may still take once the token is cancelled. -/
def TaskPhase.leaving : TaskPhase → Nat
  | .exited => 0
  | .atShutdown _ => 1
  | .starting | .asleep _ | .running _ => 2
  | .atTick _ => 3
  | .atNotified _ => 4

/-- Whether it may still begin its work: it is past the check for shutdown. -/
def TaskPhase.pastShutdown : TaskPhase → Nat
  | .atNotified _ | .atTick _ => 1
  | _ => 0

/-- What is marked since the token was cancelled, latest first. -/
def sinceCancelled (marks : List Mark) : List Mark :=
  marks.takeWhile (· ≠ .cancelled)

namespace Service

structure Leaving (recent : List Mark) (task : Nat) (phase : TaskPhase) :
    Prop where
  polled : recent.count (.polled task) + phase.leaving ≤ 4
  began : recent.count (.began task) + phase.pastShutdown ≤ 1

section Step

variable [Notify Signal] {config : Config}
  {service service' : Service Signal} {task : Nat}
  {phase phase' : TaskPhase} {recent : List Mark}

theorem leaving_nil (task : Nat) (phase : TaskPhase) :
    Leaving [] task phase := by
  constructor <;> cases phase <;> simp [TaskPhase.leaving, TaskPhase.pastShutdown]

theorem Leaving.append (before : Leaving recent task phase)
    {newer : List Mark}
    (polled : newer.count (.polled task) + phase'.leaving ≤ phase.leaving)
    (began : newer.count (.began task) + phase'.pastShutdown ≤
      phase.pastShutdown) : Leaving (newer ++ recent) task phase' := by
  have polls := before.polled
  have begins := before.began
  constructor
  · rw [List.count_append]
    omega
  · rw [List.count_append]
    omega

/-- What another task is marked with leaves the counts as they are. -/
theorem Leaving.other (before : Leaving recent task phase)
    {newer : List Mark} (polled : .polled task ∉ newer)
    (began : .began task ∉ newer) : Leaving (newer ++ recent) task phase := by
  apply before.append
  · rw [List.count_eq_zero.mpr polled, Nat.zero_add]
  · rw [List.count_eq_zero.mpr began, Nat.zero_add]

/-- A poll after the cancellation brings the task nearer to its exit. -/
theorem Polled.leaves {request : Request} {wakes : Bool}
    (polled : Polled config service task request wakes phase service')
    (cancelled : service.cancelled = true) :
    ∃ phase' newer, service'.tasks = service.tasks.set task phase' ∧
      service'.marks = newer ++ service.marks ∧
      (∀ mark ∈ newer, mark = .polled task ∨ mark = .began task) ∧
      newer.count (.polled task) + phase'.leaving ≤ phase.leaving ∧
      newer.count (.began task) + phase'.pastShutdown ≤ phase.pastShutdown := by
  cases polled with
  | passed queued running | skipped queued running =>
      rw [cancelled] at running
      cases running
  | woken | ticked =>
      refine ⟨_, [_, _], rfl, rfl, ?_, ?_, ?_⟩ <;>
        simp [TaskPhase.leaving, TaskPhase.pastShutdown]
  | _ =>
      refine ⟨_, [_], rfl, rfl, ?_, ?_, ?_⟩ <;>
        simp [TaskPhase.leaving, TaskPhase.pastShutdown]

theorem Polled.cancelled {request : Request} {wakes : Bool}
    (polled : Polled config service task request wakes phase service') :
    service'.cancelled = service.cancelled := by
  cases polled <;> rfl

end Step

end Service

theorem sinceCancelled_append {newer marks : List Mark}
    (absent : .cancelled ∉ newer) :
    sinceCancelled (newer ++ marks) = newer ++ sinceCancelled marks := by
  apply List.takeWhile_append_of_pos
  intro mark member
  apply decide_eq_true
  rintro rfl
  exact absent member

section Run

variable [Notify Signal] {config : Config} {clock : Clock}
  {service : Service Signal}

theorem ServiceRun.leaving (run : ServiceRun config clock service) :
    service.cancelled = true → ∀ {task phase},
      service.tasks[task]? = some phase →
        Service.Leaving (sinceCancelled service.marks) task phase := by
  apply run.invariant (fun service => service.cancelled = true →
    ∀ {task phase}, service.tasks[task]? = some phase →
      Service.Leaving (sinceCancelled service.marks) task phase)
  · exact nofun
  · intro service service' _ holds stepped cancelled task phase found
    cases stepped with
    | requested | accessed | elapsed | again => exact holds cancelled found
    | signalled notifies =>
        rw [← List.singleton_append, sinceCancelled_append (by simp)]
        exact (holds cancelled found).other (by simp) (by simp)
    | cancelled running => exact Service.leaving_nil task phase
    | @polled mover request phase' _ own there polled =>
        rw [polled.cancelled] at cancelled
        obtain ⟨later, newer, tasks, marks, kinds, nearer, once⟩ :=
          polled.leaves cancelled
        have absent : Mark.cancelled ∉ newer := by
          intro member
          cases kinds _ member <;> contradiction
        rw [marks, sinceCancelled_append absent]
        rw [tasks] at found
        by_cases same : task = mover
        · subst same
          cases (getElem?_set_found there).symm.trans found
          exact (holds cancelled there).append nearer once
        · rw [List.getElem?_set_ne (Ne.symm same)] at found
          apply (holds cancelled found).other
          · intro member
            rcases kinds _ member with polled | began
            · exact same (Mark.polled.inj polled)
            · cases began
          · intro member
            rcases kinds _ member with polled | began
            · cases polled
            · exact same (Mark.began.inj began)

end Run

/-- Once the token is cancelled, whatever the order of polls and calls, a task
is polled at most four times more, begins its work at most once more, and has
exited after four polls; until then nothing keeps it from going on. A poll is
that of one branch of a `select!`, and a call goes on access by access: the
locks that the code holds across several of them are not modelled. -/
theorem shutdown_prompt {Signal : Type} [Notify Signal] {config : Config}
    {clock : Clock} {service : Service Signal}
    (run : ServiceRun config clock service)
    (cancelled : service.cancelled = true) {task : Nat} {phase : TaskPhase}
    (found : service.tasks[task]? = some phase) :
    (sinceCancelled service.marks).count (.polled task) ≤ 4 ∧
      (sinceCancelled service.marks).count (.began task) ≤ 1 ∧
      ((sinceCancelled service.marks).count (.polled task) = 4 →
        phase = .exited) ∧
      (phase = .exited ∨ service.Unstuck config task phase) := by
  have leaving := run.leaving cancelled found
  have polled := leaving.polled
  have began := leaving.began
  refine ⟨by omega, by omega, ?_, ?_⟩
  · intro all
    cases phase with
    | exited => rfl
    | _ =>
        simp only [TaskPhase.leaving] at polled
        omega
  · by_cases inside : phase = .exited
    · exact .inl inside
    · exact .inr (run.unstuck found inside)

set_option maxRecDepth 100000 in
/-- A worker that is past the check for shutdown takes the permit and begins
one more attempt. -/
theorem shutdown_prompt_attempt :
    ∃ service : Service FirstWaiting,
      ServiceRun .default ⟨0, 1000⟩ service ∧
      (sinceCancelled service.marks).count (.polled 1) = 1 ∧
      (sinceCancelled service.marks).count (.began 1) = 1 ∧
      service.Unstuck .default 1 (.running 1) := by
  obtain ⟨service, run, check⟩ : ∃ service : Service FirstWaiting,
      ServiceRun .default ⟨0, 1000⟩ service ∧
        decide (service.cancelled = true ∧
          service.tasks[1]? = some (TaskPhase.running 1) ∧
          (sinceCancelled service.marks).count (.polled 1) = 1 ∧
          (sinceCancelled service.marks).count (.began 1) = 1) = true := by
    apply @exists_serviceRun _ _ _ _ (naps 1 2 ++
      .request (.enqueue 1 1500) :: accesses 0 7 ++
      .notifyOne 0 :: accesses 0 1 ++ .cancel :: naps 1 1)
    decide +kernel
  obtain ⟨cancelled, found, polled, began⟩ := of_decide_eq_true check
  obtain ⟨_, _, _, going⟩ := shutdown_prompt run cancelled found
  exact ⟨service, run, polled, began, going.resolve_left nofun⟩

/-- All tasks have been joined, and no request is being served any more. -/
structure Service.Joined (service : Service Signal) : Prop where
  exited : ∀ phase ∈ service.tasks, phase = .exited
  drained : ∀ call ∈ service.system.calls, call.request.task = none →
    call.program.returned?.isSome = true

theorem ServiceRun.quiet [Notify Signal] {config : Config} {clock : Clock}
    {service : Service Signal} (run : ServiceRun config clock service)
    (joined : service.Joined) :
    service.system.Quiet := by
  intro call member
  cases own : call.request.task with
  | none => exact joined.drained call member own
  | some task =>
      obtain ⟨caller, found⟩ := List.getElem?_of_mem member
      rcases run.manned.calls found own with returned | running
      · exact returned
      · cases joined.exited _ (List.mem_of_getElem? running)

/-- After the shutdown nobody is left claimed, and the final metrics tell of
exactly the matches that were published, as long as the sum of the waits has
not wrapped. -/
theorem shutdown_clean {Signal : Type} [Notify Signal] {config : Config}
    {clock : Clock} {service : Service Signal}
    (run : ServiceRun config clock service) (joined : service.Joined)
    (small : service.system.world.metrics.totalWaitTimeMs < 2 ^ 64) :
    (∀ player, (service.system.world.cells player).state ≠ .claimed) ∧
      Summarises (publishedRecords service.system.trace)
        service.system.world :=
  ⟨Run.unclaimed run.run (run.quiet joined),
    Run.summarises run.run (run.quiet joined) small⟩

/-- Ten players join and a worker matches them; then the token is cancelled. -/
def serveTen : List ServiceAction :=
  naps 1 2 ++ (List.range 10).flatMap (fun caller =>
    .request (.enqueue (Fin.ofNat _ (caller + 1)) 1500) ::
      accesses caller 7 ++ .notifyOne caller :: accesses caller 1) ++
    naps 1 1 ++ accesses 10 147 ++ .cancel :: naps 0 2 ++ naps 1 2

set_option maxRecDepth 100000 in
theorem shutdown_clean_match :
    ∃ service : Service FirstWaiting,
      ServiceRun .default ⟨0, 1000⟩ service ∧
      (∀ player, (service.system.world.cells player).state ≠ .claimed) ∧
      Summarises (publishedRecords service.system.trace)
        service.system.world ∧
      (publishedRecords service.system.trace).length = 1 := by
  obtain ⟨service, run, check⟩ : ∃ service : Service FirstWaiting,
      ServiceRun .default ⟨0, 1000⟩ service ∧
        decide ((∀ phase ∈ service.tasks, phase = .exited) ∧
          (∀ call ∈ service.system.calls, call.request.task = none →
            call.program.returned?.isSome = true) ∧
          service.system.world.metrics.totalWaitTimeMs < 2 ^ 64 ∧
          (publishedRecords service.system.trace).length = 1) = true := by
    apply @exists_serviceRun _ _ _ _
      (serveTen ++ naps 2 2 ++ naps 3 2 ++ naps 4 2)
    decide +kernel
  obtain ⟨exited, drained, small, one⟩ := of_decide_eq_true check
  obtain ⟨unclaimed, summarises⟩ :=
    shutdown_clean run ⟨exited, drained⟩ small
  exact ⟨service, run, unclaimed, summarises, one⟩

end Matchmaker
