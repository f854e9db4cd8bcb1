import Matchmaker.Service.Steps

namespace Matchmaker

open Concurrent

/-! Who waits for the wake signal, and that its queue agrees. -/

namespace TaskPhase

def queued : TaskPhase → Bool
  | .atShutdown queued | .atNotified queued | .atTick queued
  | .asleep queued => queued
  | .starting | .running _ | .exited => false

/-- The phases that only a task with a branch for the wake signal gets to. -/
def listens : TaskPhase → Bool
  | .atNotified _ => true
  | .atShutdown queued | .atTick queued | .asleep queued => queued
  | .starting | .running _ | .exited => false

theorem listens_of_queued {phase : TaskPhase} (queued : phase.queued = true) :
    phase.listens = true := by
  cases phase with
  | atNotified => rfl
  | atShutdown | atTick | asleep => exact queued
  | starting | running | exited => cases queued

end TaskPhase

theorem getElem?_set_found {items : List α} {old new : α} {place : Nat}
    (found : items[place]? = some old) :
    (items.set place new)[place]? = some new := by
  obtain ⟨bound, _⟩ := List.getElem?_eq_some_iff.mp found
  exact List.getElem?_set_self bound

namespace Service

def waits (tasks : List TaskPhase) (task : Nat) : Bool :=
  tasks[task]?.any TaskPhase.queued

variable {Signal : Type}

structure Seated (view : Signal → Standing) (service : Service Signal) :
    Prop where
  seats : ∀ task, task ∈ (view service.notify).queue ↔
    waits service.tasks task = true
  reaper : ∀ {phase}, service.tasks[0]? = some phase → phase.listens = false
  staying : service.cancelled = false → .exited ∉ service.tasks

section Step

variable {view : Signal → Standing} {config : Config}
  {service service' : Service Signal} {task : Nat} {phase phase' : TaskPhase}

theorem Seated.seat (seated : service.Seated view)
    (found : service.tasks[task]? = some phase) :
    task ∈ (view service.notify).queue ↔ phase.queued = true := by
  rw [seated.seats, waits, found, Option.any_some]

/-- A task gets to another phase, and the queue follows. -/
theorem Seated.set (seated : service.Seated view)
    (found : service.tasks[task]? = some phase)
    (tasks : service'.tasks = service.tasks.set task phase')
    (cancelled : service'.cancelled = service.cancelled)
    (own : task ∈ (view service'.notify).queue ↔ phase'.queued = true)
    (others : ∀ other, other ≠ task →
      (other ∈ (view service'.notify).queue ↔
        other ∈ (view service.notify).queue))
    (reaper : phase.listens = false → task = 0 → phase'.listens = false)
    (staying : service.cancelled = false → phase' ≠ .exited) :
    service'.Seated view where
  seats other := by
    rw [tasks, waits]
    by_cases same : other = task
    · subst same
      rw [getElem?_set_found found, own, Option.any_some]
    · rw [List.getElem?_set_ne (Ne.symm same), others other same,
        seated.seats, waits]
  reaper := by
    intro other there
    rw [tasks] at there
    by_cases zero : task = 0
    · subst zero
      rw [getElem?_set_found found] at there
      cases there
      exact reaper (seated.reaper found) rfl
    · rw [List.getElem?_set_ne zero] at there
      exact seated.reaper there
  staying := by
    rw [cancelled, tasks]
    intro running inside
    rcases List.mem_or_eq_of_mem_set inside with before | same
    · exact seated.staying running before
    · exact staying running same.symm

theorem Seated.stay (seated : service.Seated view)
    (found : service.tasks[task]? = some phase)
    (same : phase'.queued = phase.queued)
    (reaper : phase.listens = false → task = 0 → phase'.listens = false)
    (staying : phase' ≠ .exited) : (service.move task phase').Seated view := by
  refine seated.set found rfl rfl ?_ (fun _ _ => .rfl) reaper
    fun _ => staying
  rw [same]
  exact seated.seat found

/-- A task takes its future of the wake signal out of the queue. -/
theorem Seated.leave (seated : service.Seated view)
    (found : service.tasks[task]? = some phase)
    (tasks : service'.tasks = service.tasks.set task phase')
    (cancelled : service'.cancelled = service.cancelled)
    (left : (view service'.notify).queue =
      (view service.notify).queue \ {task})
    (silent : phase'.listens = false)
    (staying : service.cancelled = false → phase' ≠ .exited) :
    service'.Seated view := by
  refine seated.set found tasks cancelled ?_ ?_ (fun _ _ => silent) staying
  · rw [left]
    constructor
    · intro inside
      exact absurd (Set.mem_singleton task) inside.2
    · intro queued
      rw [TaskPhase.listens_of_queued queued] at silent
      cases silent
  · intro other different
    rw [left]
    exact and_iff_left different

variable [Notify Signal]

theorem Seated.dropNotified (documented : Notify.Documented view)
    (seated : service.Seated view)
    (found : service.tasks[task]? = some phase) :
    (view (service.dropNotified task phase.queued)).queue =
      (view service.notify).queue \ {task} := by
  have seat := seated.seat found
  unfold Service.dropNotified
  split
  · rename_i queued
    exact documented.drops (seat.mpr queued)
  · rename_i absent
    exact (Set.sdiff_singleton_eq_self fun inside =>
      absent (seat.mp inside)).symm

theorem Seated.polled {request : Request}
    (documented : Notify.Documented view) (seated : service.Seated view)
    (found : service.tasks[task]? = some phase)
    (polled : Polled config service task request (task ≠ 0) phase service') :
    service'.Seated view := by
  cases polled with
  | started => exact seated.stay found rfl (fun _ _ => rfl) nofun
  | stopped queued cancelled =>
      refine seated.leave found rfl rfl (seated.dropNotified documented found)
        rfl ?_
      intro running
      rw [cancelled] at running
      cases running
  | passed queued running wakes =>
      refine seated.stay found (by rfl) ?_ nofun
      intro _ zero
      exact absurd zero (of_decide_eq_true wakes)
  | skipped queued running deaf =>
      exact seated.stay found rfl (fun silent _ => silent) nofun
  | woken queued ready began =>
      exact seated.leave found rfl rfl
        (documented.poll_ready (seated.seat found) ready) rfl fun _ => nofun
  | waited queued pending =>
      have joined := Set.ext_iff.mp
        (documented.poll_pending (seated.seat found) pending).1
      refine seated.set found rfl rfl ?_ ?_ nofun fun _ => nofun
      · exact (joined task).trans ⟨fun _ => rfl, fun _ => .inl rfl⟩
      · intro other different
        exact (joined other).trans (or_iff_right different)
  | ticked queued began =>
      exact seated.leave found rfl rfl (seated.dropNotified documented found)
        rfl fun _ => nofun
  | slept queued =>
      exact seated.stay found rfl (fun silent _ => silent) nofun
  | roused queued =>
      exact seated.stay found rfl (fun silent _ => silent) nofun
  | finished caller returned =>
      exact seated.stay found rfl (fun _ _ => rfl) nofun

end Step

theorem seated_spawnAll [Notify Signal] {view : Signal → Standing}
    (documented : Notify.Documented view) (config : Config) (clock : Clock) :
    (spawnAll config clock).Seated view where
  seats task := by
    show task ∈ (view Notify.new).queue ↔ _
    rw [documented.new]
    constructor
    · exact nofun
    · intro waiting
      rw [waits, spawnAll, List.getElem?_replicate] at waiting
      split at waiting <;> cases waiting
  reaper found := by
    rw [(List.mem_replicate.mp (List.mem_of_getElem? found)).2]
    rfl
  staying _ inside := by
    cases (List.mem_replicate.mp inside).2

end Service

theorem ServiceRun.seated {Signal : Type} [Notify Signal]
    {view : Signal → Standing} {config : Config} {clock : Clock}
    {service : Service Signal} (documented : Notify.Documented view)
    (run : ServiceRun config clock service) : service.Seated view := by
  apply run.invariant (Service.Seated view)
    (Service.seated_spawnAll documented config clock)
  intro service service' _ seated stepped
  cases stepped with
  | requested | accessed | elapsed =>
      exact ⟨seated.seats, seated.reaper, seated.staying⟩
  | again => exact seated
  | signalled notifies =>
      refine ⟨fun task => ?_, seated.reaper, seated.staying⟩
      rw [documented.queue_notifyOne]
      exact seated.seats task
  | polled _ found polled => exact seated.polled documented found polled
  | cancelled => exact ⟨seated.seats, seated.reaper, nofun⟩

end Matchmaker
