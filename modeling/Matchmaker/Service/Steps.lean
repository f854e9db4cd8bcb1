import Matchmaker.Service.Tasks

namespace Matchmaker

open Concurrent

/-! What a step of the service can be. -/

variable {Signal : Type} [Notify Signal]

namespace Service

/-- Everything a poll of a task can be, by the phase it is in. -/
inductive Polled (config : Config) (service : Service Signal) (task : Nat)
    (request : Request) (wakes : Bool) : TaskPhase → Service Signal → Prop
  | started : Polled config service task request wakes .starting
      (service.move task (.atShutdown false))
  | stopped (queued : Bool) (cancelled : service.cancelled = true) :
      Polled config service task request wakes (.atShutdown queued)
        ({ service with notify := service.dropNotified task queued }.move
          task .exited)
  | passed (queued : Bool) (running : service.cancelled = false)
      (listens : wakes = true) :
      Polled config service task request wakes (.atShutdown queued)
        (service.move task (.atNotified queued))
  | skipped (queued : Bool) (running : service.cancelled = false)
      (deaf : wakes = false) :
      Polled config service task request wakes (.atShutdown queued)
        (service.move task (.atTick queued))
  | woken (queued : Bool) {system : System}
      (ready : (Notify.poll service.notify task queued).1 = true)
      (began : service.system.step config (.start request) = some system) :
      Polled config service task request wakes (.atNotified queued)
        { service with
          system
          notify := (Notify.poll service.notify task queued).2
          tasks := service.tasks.set task
            (.running service.system.calls.length)
          marks := .began task :: .polled task :: service.marks }
  | waited (queued : Bool)
      (pending : (Notify.poll service.notify task queued).1 = false) :
      Polled config service task request wakes (.atNotified queued)
        ({ service with
            notify := (Notify.poll service.notify task queued).2 }.move task
          (.atTick true))
  | ticked (queued : Bool) {system : System}
      (began : service.system.step config (.start request) = some system) :
      Polled config service task request wakes (.atTick queued)
        { service with
          system
          notify := service.dropNotified task queued
          tasks := service.tasks.set task
            (.running service.system.calls.length)
          marks := .began task :: .polled task :: service.marks }
  | slept (queued : Bool) :
      Polled config service task request wakes (.atTick queued)
        (service.move task (.asleep queued))
  | roused (queued : Bool) :
      Polled config service task request wakes (.asleep queued)
        (service.move task (.atShutdown queued))
  | finished (caller : Nat) (returned : service.returned caller = true) :
      Polled config service task request wakes (.running caller)
        (service.move task (.atShutdown false))

theorem polled_of_pollTask {config : Config} {service service' : Service Signal}
    {task : Nat} {request : Request} {wakes elapsed : Bool}
    (moved : service.pollTask config task request wakes elapsed =
      some service') :
    ∃ phase, service.tasks[task]? = some phase ∧
      Polled config service task request wakes phase service' := by
  unfold pollTask at moved
  split at moved
  · cases moved
  · cases moved
  · rename_i found
    cases moved
    exact ⟨_, found, .started⟩
  · rename_i queued found
    split at moved
    · rename_i cancelled
      cases moved
      exact ⟨_, found, .stopped queued cancelled⟩
    · rename_i running
      have running := Bool.eq_false_iff.mpr running
      split at moved
      · rename_i listens
        cases moved
        exact ⟨_, found, .passed queued running listens⟩
      · rename_i deaf
        cases moved
        exact ⟨_, found, .skipped queued running (Bool.eq_false_iff.mpr deaf)⟩
  · rename_i queued found
    dsimp only at moved
    split at moved
    · rename_i ready
      obtain ⟨system, began, rfl⟩ := Option.map_eq_some_iff.mp moved
      exact ⟨_, found, .woken queued ready began⟩
    · rename_i pending
      cases moved
      exact ⟨_, found, .waited queued (Bool.eq_false_iff.mpr pending)⟩
  · rename_i queued found
    split at moved
    · obtain ⟨system, began, rfl⟩ := Option.map_eq_some_iff.mp moved
      exact ⟨_, found, .ticked queued began⟩
    · cases moved
      exact ⟨_, found, .slept queued⟩
  · rename_i queued found
    cases moved
    exact ⟨_, found, .roused queued⟩
  · rename_i caller found
    split at moved
    · rename_i returned
      cases moved
      exact ⟨_, found, .finished caller returned⟩
    · cases moved

/-- What happens to the tasks in one step of the service. -/
inductive Stepped (config : Config) (service : Service Signal) :
    Service Signal → Prop
  | requested {request : Request} {system : System}
      (outside : request.task = none)
      (began : service.system.step config (.start request) = some system) :
      Stepped config service { service with system }
  | accessed {caller : Nat} {choice : Choice} {system : System}
      (free : service.notifies caller = false)
      (moved : service.system.step config (.step caller choice) =
        some system) :
      Stepped config service { service with system }
  | elapsed {instant unixMs : Nat} {system : System}
      (moved : service.system.step config (.tick instant unixMs) =
        some system) :
      Stepped config service { service with system }
  | signalled {caller : Nat} (notifies : service.notifies caller = true) :
      Stepped config service { service with
        notify := Notify.notifyOne service.notify
        marks := .signalled caller :: service.marks }
  | polled {task : Nat} {request : Request} {phase : TaskPhase}
      {service' : Service Signal} (own : request.task = some task)
      (found : service.tasks[task]? = some phase)
      (polled : Polled config service task request (task ≠ 0) phase service') :
      Stepped config service service'
  | cancelled (running : service.cancelled = false) :
      Stepped config service { service with
        cancelled := true
        marks := .cancelled :: service.marks }
  | again (cancelled : service.cancelled = true) :
      Stepped config service service

theorem stepped_of_step {config : Config} {service service' : Service Signal}
    {action : ServiceAction}
    (moved : service.step config action = some service') :
    Stepped config service service' := by
  cases action with
  | request request =>
      rw [step] at moved
      split at moved
      · rename_i outside
        obtain ⟨system, began, rfl⟩ := Option.map_eq_some_iff.mp moved
        exact .requested outside began
      · cases moved
  | access caller choice =>
      rw [step] at moved
      split at moved
      · cases moved
      · rename_i free
        obtain ⟨system, stepped, rfl⟩ := Option.map_eq_some_iff.mp moved
        exact .accessed (Bool.eq_false_iff.mpr free) stepped
  | tick instant unixMs =>
      rw [step] at moved
      obtain ⟨system, stepped, rfl⟩ := Option.map_eq_some_iff.mp moved
      exact .elapsed stepped
  | notifyOne caller =>
      rw [step] at moved
      split at moved
      · rename_i notifies
        cases moved
        exact .signalled notifies
      · cases moved
  | poll task elapsed =>
      rw [step] at moved
      split at moved
      · rename_i reaper
        obtain ⟨phase, found, polled⟩ := polled_of_pollTask moved
        subst reaper
        exact .polled rfl found polled
      · rename_i worker
        obtain ⟨phase, found, polled⟩ := polled_of_pollTask moved
        have wakes : (true : Bool) = decide (task ≠ 0) :=
          (decide_eq_true worker).symm
        rw [wakes] at polled
        exact .polled rfl found polled
  | cancel =>
      rw [step] at moved
      split at moved
      · rename_i cancelled
        cases moved
        exact .again cancelled
      · rename_i running
        cases moved
        exact .cancelled (Bool.eq_false_iff.mpr running)

/-- A step of the service is at most one step of the calls. -/
theorem Stepped.system {config : Config} {service service' : Service Signal}
    (stepped : Stepped config service service') :
    service'.system = service.system ∨
      ∃ action, service.system.step config action = some service'.system := by
  cases stepped with
  | requested _ began => exact .inr ⟨_, began⟩
  | accessed _ moved => exact .inr ⟨_, moved⟩
  | elapsed moved => exact .inr ⟨_, moved⟩
  | signalled => exact .inl rfl
  | polled _ _ polled =>
      cases polled with
      | woken _ _ began => exact .inr ⟨_, began⟩
      | ticked _ began => exact .inr ⟨_, began⟩
      | _ => exact .inl rfl
  | cancelled => exact .inl rfl
  | again => exact .inl rfl

/-- Marks are only added. -/
theorem Stepped.marks {config : Config} {service service' : Service Signal}
    (stepped : Stepped config service service') :
    ∃ newer, service'.marks = newer ++ service.marks := by
  cases stepped with
  | requested | accessed | elapsed | again => exact ⟨[], rfl⟩
  | signalled | cancelled => exact ⟨[_], rfl⟩
  | polled _ _ polled =>
      cases polled with
      | woken | ticked => exact ⟨[_, _], rfl⟩
      | _ => exact ⟨[_], rfl⟩

/-- Only a signal is marked as one. -/
theorem Stepped.signals {config : Config} {service service' : Service Signal}
    {caller : Nat} (stepped : Stepped config service service')
    (signalled : .signalled caller ∈ service'.marks) :
    .signalled caller ∈ service.marks ∨
      service'.notify = Notify.notifyOne service.notify ∧
        service'.tasks = service.tasks ∧
        service'.marks = .signalled caller :: service.marks := by
  cases stepped with
  | requested | accessed | elapsed | again => exact .inl signalled
  | signalled notifies =>
      rcases List.mem_cons.mp signalled with same | before
      · cases same
        exact .inr ⟨rfl, rfl, rfl⟩
      · exact .inl before
  | polled _ _ polled =>
      left
      cases polled with
      | woken | ticked => simpa using signalled
      | _ => simpa [move] using signalled
  | cancelled => exact .inl (by simpa using signalled)

/-- What the calls have done changes with an access only. -/
theorem Stepped.trace {config : Config} {service service' : Service Signal}
    (stepped : Stepped config service service') :
    service'.system.trace = service.system.trace ∨
      ∃ caller choice, service.notifies caller = false ∧
        service'.marks = service.marks ∧
        service.system.step config (.step caller choice) =
          some service'.system := by
  cases stepped with
  | requested _ began =>
      obtain ⟨task, _, rfl⟩ := Option.map_eq_some_iff.mp began
      exact .inl rfl
  | accessed free moved => exact .inr ⟨_, _, free, rfl, moved⟩
  | elapsed moved =>
      cases moved
      exact .inl rfl
  | signalled | again | cancelled => exact .inl rfl
  | polled _ _ polled =>
      left
      cases polled with
      | woken _ _ began =>
          obtain ⟨task, _, rfl⟩ := Option.map_eq_some_iff.mp began
          rfl
      | ticked _ began =>
          obtain ⟨task, _, rfl⟩ := Option.map_eq_some_iff.mp began
          rfl
      | _ => rfl

theorem Stepped.running {config : Config} {service service' : Service Signal}
    (stepped : Stepped config service service')
    (running : service'.cancelled = false) : service.cancelled = false := by
  cases stepped with
  | polled _ _ polled => cases polled <;> exact running
  | cancelled => cases running
  | _ => exact running

/-- No task is added or goes away. -/
theorem Stepped.tasks {config : Config} {service service' : Service Signal}
    (stepped : Stepped config service service') :
    service'.tasks.length = service.tasks.length := by
  cases stepped with
  | polled _ _ polled => cases polled <;> exact List.length_set
  | _ => rfl

end Service

section Run

variable {config : Config} {clock : Clock} {service : Service Signal}

/-- Invariant rule for the service. -/
theorem ServiceRun.invariant (run : ServiceRun config clock service)
    (property : Service Signal → Prop)
    (initially : property (spawnAll config clock))
    (kept : ∀ {service service'}, ServiceRun config clock service →
      property service → Service.Stepped config service service' →
      property service') : property service :=
  Reachable.invariant run initially fun before holds _ moved =>
    kept before holds (Service.stepped_of_step moved)

/-- The tasks make their calls in some run of the calls. -/
theorem ServiceRun.run (run : ServiceRun config clock service) :
    Run config clock .free service.system := by
  apply run.invariant (fun service => Run config clock .free service.system)
    .start
  intro service service' _ before stepped
  rcases stepped.system with same | ⟨action, moved⟩
  · rw [same]
    exact before
  · apply before.step ?_ moved
    cases action with
    | start request => rfl
    | step caller choice =>
        rw [Discipline.permits, Discipline.free]
        cases service.system.nextOperation caller <;> rfl
    | tick instant unixMs => rfl

theorem exists_serviceRun {actions : List ServiceAction}
    {check : Service Signal → Bool}
    (played : (schedule (Service.step config) (fun _ _ => true)
      (spawnAll config clock) actions).any check = true) :
    ∃ service, ServiceRun config clock service ∧ check service = true := by
  obtain ⟨service, ran, checked⟩ := (Option.any_eq_true _ _).mp played
  exact ⟨service, Reachable.schedule (fun _ _ _ => trivial) .start ran,
    checked⟩

end Run

/-- Several polls of one task, the interval not having elapsed. -/
def naps (task count : Nat) : List ServiceAction :=
  List.replicate count (.poll task false)

def accesses (caller count : Nat) : List ServiceAction :=
  List.replicate count
    (.access caller { keptAlive := true, uuid := 0, arrange := id })

end Matchmaker
