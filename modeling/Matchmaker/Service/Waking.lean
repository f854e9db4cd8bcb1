import Matchmaker.Safety.Registration
import Matchmaker.Service.Seats

namespace Matchmaker

open Concurrent

/-! No wake-up is lost: what an enqueue signals is heard before long. -/

/-- How many polls bring a task that is due to its work, the last included. -/
def TaskPhase.distance : TaskPhase → Nat
  | .exited => 0
  | .atNotified _ => 1
  | .atShutdown _ => 2
  | .starting | .asleep _ | .running _ => 3
  | .atTick _ => 4

theorem TaskPhase.distance_le (phase : TaskPhase) : phase.distance ≤ 4 := by
  cases phase <;> simp [TaskPhase.distance]

variable {Signal : Type}

namespace Service

/-- A worker will find the notification, and every poll since the signal has
brought it closer. -/
structure Nearing (view : Signal → Standing) (service : Service Signal)
    (recent : List Mark) (task : Nat) (phase : TaskPhase) : Prop where
  worker : task ≠ 0
  found : service.tasks[task]? = some phase
  due : (view service.notify).Due task
  close : recent.count (.polled task) + phase.distance ≤ 4

/-- A worker has begun an attempt since the signal, or one is about to. -/
def Attended (view : Signal → Standing) (service : Service Signal)
    (recent : List Mark) : Prop :=
  (∃ worker, worker ≠ 0 ∧ .began worker ∈ recent) ∨
    ∃ task phase, service.Nearing view recent task phase

section Step

variable {view : Signal → Standing} {config : Config}
  {service service' : Service Signal} {task worker : Nat}
  {phase phase' : TaskPhase} {recent : List Mark}

/-- Steps that do not poll the worker keep it near. -/
theorem Nearing.keep (nearing : service.Nearing view recent worker phase)
    (same : service'.tasks[worker]? = service.tasks[worker]?)
    (due : (view service'.notify).Due worker) {newer : List Mark}
    (quiet : .polled worker ∉ newer) :
    service'.Nearing view (newer ++ recent) worker phase where
  worker := nearing.worker
  found := same.trans nearing.found
  due := due
  close := by
    rw [List.count_append, List.count_eq_zero.mpr quiet, Nat.zero_add]
    exact nearing.close

/-- A poll that only moves a task on brings it closer, or leaves it away. -/
theorem Nearing.move (nearing : service.Nearing view recent worker phase)
    (found : service.tasks[task]? = some phase')
    {next : TaskPhase} (closer : task ≠ 0 → next.distance < phase'.distance) :
    ∃ newer, (service.move task next).marks = newer ++ service.marks ∧
      (service.move task next).Attended view (newer ++ recent) := by
  refine ⟨[.polled task], rfl, .inr ⟨worker, ?_⟩⟩
  by_cases same : worker = task
  · subst same
    have close := nearing.close
    cases nearing.found.symm.trans found
    have closer := closer nearing.worker
    refine ⟨next, nearing.worker, getElem?_set_found found, nearing.due, ?_⟩
    rw [List.singleton_append, List.count_cons_self]
    omega
  · have away : (service.move task next).tasks[worker]? =
        service.tasks[worker]? := List.getElem?_set_ne (Ne.symm same)
    exact ⟨phase, nearing.keep away nearing.due (by simpa using same)⟩

variable [Notify Signal]

/-- Whoever is polled, the wait for an attempt gets no longer. -/
theorem Nearing.polled {request : Request}
    (documented : Notify.Documented view) (seated : service.Seated view)
    (running : service.cancelled = false)
    (nearing : service.Nearing view recent worker phase)
    (found : service.tasks[task]? = some phase')
    (polled : Polled config service task request (task ≠ 0) phase' service') :
    ∃ newer, service'.marks = newer ++ service.marks ∧
      service'.Attended view (newer ++ recent) := by
  cases polled with
  | started => exact nearing.move found fun _ => Nat.lt_succ_self _
  | stopped queued cancelled =>
      rw [running] at cancelled
      cases cancelled
  | passed queued => exact nearing.move found fun _ => Nat.one_lt_two
  | skipped queued _ deaf =>
      exact nearing.move found fun nonzero =>
        absurd nonzero (of_decide_eq_false deaf)
  | woken queued ready began =>
      refine ⟨[_, _], rfl, .inl ⟨task, ?_, List.mem_cons_self⟩⟩
      rintro rfl
      cases seated.reaper found
  | waited queued pending =>
      have different : worker ≠ task := by
        rintro rfl
        cases nearing.found.symm.trans found
        have ready := documented.poll_of_due nearing.due (seated.seat found)
        exact Bool.false_ne_true (pending.symm.trans ready)
      have due := (documented.poll_pending (seated.seat found) pending).2
        worker nearing.due
      refine ⟨[_], rfl, .inr ⟨worker, phase, nearing.keep ?_ due ?_⟩⟩
      · exact List.getElem?_set_ne (Ne.symm different)
      · simpa using different
  | ticked queued began =>
      by_cases reaper : task = 0
      · subst reaper
        cases seated.reaper found
        refine ⟨[_, _], rfl, .inr ⟨worker, phase, nearing.keep ?_ ?_ ?_⟩⟩
        · exact List.getElem?_set_ne (Ne.symm nearing.worker)
        · exact nearing.due
        · simpa using nearing.worker
      · exact ⟨[_, _], rfl, .inl ⟨task, reaper, List.mem_cons_self⟩⟩
  | slept queued =>
      exact nearing.move found fun _ => Nat.lt_succ_self _
  | roused queued =>
      exact nearing.move found fun _ => Nat.lt_succ_self _
  | finished caller returned =>
      exact nearing.move found fun _ => Nat.lt_succ_self _

theorem Attended.step (documented : Notify.Documented view)
    (attended : service.Attended view recent)
    (seated : service.Seated view) (stepped : Stepped config service service')
    (running : service'.cancelled = false) :
    ∃ newer, service'.marks = newer ++ service.marks ∧
      service'.Attended view (newer ++ recent) := by
  rcases attended with ⟨worker, nonzero, began⟩ | ⟨worker, phase, nearing⟩
  · obtain ⟨newer, marks⟩ := stepped.marks
    exact ⟨newer, marks,
      .inl ⟨worker, nonzero, List.mem_append_right _ began⟩⟩
  · have before := stepped.running running
    cases stepped with
    | requested | accessed | elapsed =>
        refine ⟨[], rfl, .inr ⟨worker, phase, nearing.keep ?_ ?_ ?_⟩⟩
        · rfl
        · exact nearing.due
        · exact List.not_mem_nil
    | again => exact ⟨[], rfl, .inr ⟨worker, phase, nearing⟩⟩
    | signalled notifies =>
        refine ⟨[_], rfl, .inr ⟨worker, phase, nearing.keep ?_ ?_ ?_⟩⟩
        · rfl
        · exact documented.due_of_due nearing.due
        · simp
    | polled own found polled =>
        exact nearing.polled documented seated before found polled
    | cancelled => cases running

/-- Right after a signal somebody is on the way. -/
theorem attended_signalled (documented : Notify.Documented view)
    (seated : service.Seated view) (staffed : 1 < service.tasks.length)
    (notify : service'.notify = Notify.notifyOne service.notify)
    (tasks : service'.tasks = service.tasks) : service'.Attended view [] := by
  have near : ∀ {worker phase}, worker ≠ 0 →
      service.tasks[worker]? = some phase →
      (view (Notify.notifyOne service.notify)).Due worker →
      service'.Attended view [] := by
    intro worker phase nonzero found due
    refine .inr ⟨worker, phase, nonzero, tasks ▸ found, notify ▸ due, ?_⟩
    rw [List.count_nil, Nat.zero_add]
    exact phase.distance_le
  rcases documented.due_notifyOne service.notify with
    ⟨worker, inside, due⟩ | everyone
  · rw [seated.seats] at inside
    obtain ⟨phase, found, queued⟩ := (Option.any_eq_true _ _).mp inside
    apply near ?_ found due
    rintro rfl
    have silent := seated.reaper found
    rw [TaskPhase.listens_of_queued queued] at silent
    cases silent
  · exact near Nat.one_ne_zero (List.getElem?_eq_getElem staffed) (everyone 1)

end Step

end Service

/-- Whether a call has got to its `notify_one`, and beyond. -/
def announcing : Contract memory where
  Role := Unit
  Ghost := Bool
  initial := false
  next counted operation _ :=
    match operation with
    | .primaryLen => true
    | _ => counted
  Allowed _ _ _ := True
  Credible _ _ := True

def Announces : Response → Bool → Prop
  | .enqueue (.ok _), counted => counted = true
  | _, _ => True

theorem obeys_enqueue_announcing (id : Uuid) (skillRating : Nat) :
    announcing.Obeys () (fun outcome => Announces (.enqueue outcome))
      (MatchmakerCore.enqueue id skillRating) false := by
  unfold MatchmakerCore.enqueue
  split
  · exact trivial
  · apply (Contract.Obeys.of_allowed fun _ _ => trivial).bind
    intro found _ _
    split
    · exact trivial
    · apply (Contract.Obeys.of_allowed fun _ _ => trivial).bind
      intro player _ _
      apply (Contract.Obeys.of_allowed fun _ _ => trivial).bind
      intro _ _ _
      apply (Contract.Obeys.of_allowed fun _ _ => trivial).bind
      intro _ _ _
      apply (Contract.Obeys.of_allowed fun _ _ => trivial).bind
      intro _ _ _
      exact ⟨trivial, fun _ _ => rfl⟩

theorem System.obeys_program_announcing {config : Config} {system : System}
    {request : Request} {task : Task Response}
    (launched : system.program config request = some task) :
    announcing.Obeys () Announces task false := by
  cases request with
  | enqueue id skillRating =>
      cases launched
      exact (obeys_enqueue_announcing id skillRating).map fun _ _ holds => holds
  | cancel id =>
      cases launched
      apply (Contract.Obeys.of_allowed fun _ _ => trivial).map
      exact fun _ _ _ => trivial
  | attemptMatch workerId =>
      obtain ⟨state, _, rfl⟩ := Option.map_eq_some_iff.mp launched
      apply (Contract.Obeys.of_allowed fun _ _ => trivial).map
      exact fun _ _ _ => trivial
  | reaperTick =>
      rw [System.program] at launched
      split at launched
      · cases launched
        apply (Contract.Obeys.of_allowed fun _ _ => trivial).map
        exact fun _ _ _ => trivial
      · cases launched

section Run

variable [Notify Signal] {view : Signal → Standing} {config : Config}
  {clock : Clock} {service : Service Signal} {caller : Nat}

theorem ServiceRun.length_tasks (run : ServiceRun config clock service) :
    service.tasks.length = config.workerCount + 1 := by
  apply run.invariant (fun service =>
    service.tasks.length = config.workerCount + 1) List.length_replicate
  intro service service' _ length stepped
  rw [stepped.tasks, length]

/-- No call goes on past its `notify_one` without it. -/
theorem ServiceRun.signalled (run : ServiceRun config clock service)
    (counted : announcing.ghost caller service.system.trace = true) :
    .signalled caller ∈ service.marks := by
  revert counted
  apply run.invariant (fun service =>
    announcing.ghost caller service.system.trace = true →
      .signalled caller ∈ service.marks)
  · exact nofun
  · intro service service' _ holds stepped counted
    rcases stepped.trace with same | ⟨mover, choice, free, marks, moved⟩
    · obtain ⟨newer, marks⟩ := stepped.marks
      rw [same] at counted
      rw [marks]
      exact List.mem_append_right _ (holds counted)
    · rw [marks]
      obtain ⟨request, operation, next, found, system⟩ :=
        Pool.advance_cases moved
      rw [system] at counted
      by_cases own : mover = caller
      · subst own
        rw [Contract.ghost_self] at counted
        cases operation with
        | primaryLen =>
            simpa [Service.notifies, System.nextOperation, found] using free
        | _ => exact holds counted
      · rw [Contract.ghost_other own] at counted
        exact holds counted

/-- Since a call signalled, its signal was heard or is about to be. -/
def Service.Answered (view : Signal → Standing) (service : Service Signal)
    (caller : Nat) : Prop :=
  ∃ recent older, service.marks = recent ++ .signalled caller :: older ∧
    service.Attended view recent

theorem ServiceRun.answered (documented : Notify.Documented view)
    (run : ServiceRun config clock service) (staffed : 0 < config.workerCount)
    (signalled : .signalled caller ∈ service.marks)
    (running : service.cancelled = false) : service.Answered view caller := by
  revert signalled running
  apply run.invariant (fun service =>
    .signalled caller ∈ service.marks → service.cancelled = false →
      service.Answered view caller)
  · exact nofun
  · intro service service' before holds stepped signalled running
    rcases stepped.signals signalled with already | ⟨notify, tasks, marks⟩
    · obtain ⟨recent, older, split, attended⟩ :=
        holds already (stepped.running running)
      obtain ⟨newer, marks, attended⟩ :=
        attended.step documented (before.seated documented) stepped running
      refine ⟨newer ++ recent, older, ?_, attended⟩
      rw [marks, split, List.append_assoc]
    · refine ⟨[], service.marks, marks, ?_⟩
      apply Service.attended_signalled documented (before.seated documented)
        ?_ notify tasks
      rw [ServiceRun.length_tasks before]
      omega

theorem ServiceRun.counted (run : ServiceRun config clock service)
    (accepted : service.system.accepted caller = true) :
    announcing.ghost caller service.system.trace = true := by
  have follows : service.system.Follows announcing (fun _ => ())
      fun _ => Announces :=
    Run.follows run.run System.obeys_program_announcing fun _ _ _ => trivial
  unfold System.accepted at accepted
  split at accepted
  · rename_i found
    exact follows.returned found
  · cases accepted

end Run

/-- Before the shutdown, no wake-up is lost: every accepted enqueue has
signalled, and a worker has begun an attempt since, unless there is a worker
that has not been polled four times since. The signal is any that does what is
documented. -/
theorem wakeups_heard {Signal : Type} [Notify Signal]
    {view : Signal → Standing} (documented : Notify.Documented view)
    {config : Config} {clock : Clock} {service : Service Signal}
    (run : ServiceRun config clock service)
    (staffed : 0 < config.workerCount) (running : service.cancelled = false)
    {caller : Nat} (accepted : service.system.accepted caller = true) :
    ∃ recent older, service.marks = recent ++ .signalled caller :: older ∧
      ((∃ worker, worker ≠ 0 ∧ .began worker ∈ recent) ∨
        ∃ worker, worker ≠ 0 ∧ worker ≤ config.workerCount ∧
          recent.count (.polled worker) < 4) := by
  obtain ⟨recent, older, split, attended⟩ :=
    run.answered documented staffed (run.signalled (run.counted accepted))
      running
  refine ⟨recent, older, split, ?_⟩
  rcases attended with heard | ⟨worker, phase, nearing⟩
  · exact .inl heard
  · obtain ⟨bound, there⟩ := List.getElem?_eq_some_iff.mp nearing.found
    have staying : phase ≠ .exited := by
      rintro rfl
      have seated := run.seated documented
      exact seated.staying running (List.mem_of_getElem? nearing.found)
    have near : 0 < phase.distance := by
      cases phase <;> first | exact absurd rfl staying | exact Nat.succ_pos _
    have close := nearing.close
    rw [run.length_tasks] at bound
    exact .inr ⟨worker, nearing.worker, by omega, by omega⟩

set_option maxRecDepth 100000 in
/-- A worker sleeps when a player joins, and is woken. -/
theorem wakeups_heard_asleep :
    ∃ service : Service FirstWaiting,
      ServiceRun .default ⟨0, 1000⟩ service ∧ service.system.accepted 0 = true ∧
      ∃ recent older, service.marks = recent ++ .signalled 0 :: older ∧
        ((∃ worker, worker ≠ 0 ∧ .began worker ∈ recent) ∨
          ∃ worker, worker ≠ 0 ∧ worker ≤ Config.default.workerCount ∧
            recent.count (.polled worker) < 4) := by
  obtain ⟨service, run, check⟩ : ∃ service : Service FirstWaiting,
      ServiceRun .default ⟨0, 1000⟩ service ∧
        decide (service.cancelled = false ∧
          service.system.accepted 0 = true ∧
          service.tasks[1]? = some (TaskPhase.running 1)) = true := by
    apply @exists_serviceRun _ _ _ _ (naps 1 4 ++
      .request (.enqueue 1 1500) :: accesses 0 7 ++
      .notifyOne 0 :: accesses 0 1 ++ naps 1 3)
    decide +kernel
  obtain ⟨running, accepted, _⟩ := of_decide_eq_true check
  exact ⟨service, run, accepted, wakeups_heard FirstWaiting.documented run
    (by decide) running accepted⟩

end Matchmaker
