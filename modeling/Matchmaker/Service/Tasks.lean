import Matchmaker.Concurrent.Notify
import Matchmaker.Protocol.Runs

namespace Matchmaker

open Concurrent

/-! The tasks of the service: workers that are woken or tick, the reaper, and
the token that stops them all. The wake signal is a parameter. -/

/-- Where a task stands in its loop. A `select!` polls its branches one after
the other; `queued` says whether its future of the wake signal was polled
before. -/
inductive TaskPhase
  | starting
  | atShutdown (queued : Bool)
  | atNotified (queued : Bool)
  | atTick (queued : Bool)
  | asleep (queued : Bool)
  | running (caller : Nat)
  | exited
deriving DecidableEq

/-- What is recorded of the tasks, for the statements only. -/
inductive Mark
  | signalled (caller : Nat)
  | polled (task : Nat)
  | began (task : Nat)
  | cancelled
deriving DecidableEq

/-- The reaper is task 0 and the workers are the tasks from 1 on. Marks list
the latest first. -/
structure Service (Signal : Type) where
  system : System
  notify : Signal
  cancelled : Bool
  tasks : List TaskPhase
  marks : List Mark

/-- The task that makes a request, unless it comes from outside. -/
def Request.task : Request → Option Nat
  | .enqueue .. | .cancel _ => none
  | .attemptMatch workerId => some workerId
  | .reaperTick => some 0

/-- A poll is told whether the interval has elapsed. -/
inductive ServiceAction
  | request (request : Request)
  | access (caller : Nat) (choice : Choice)
  | tick (instant unixMs : Nat)
  | notifyOne (caller : Nat)
  | poll (task : Nat) (elapsed : Bool)
  | cancel

section Tasks

variable {Signal : Type}

def spawnAll [Notify Signal] (config : Config) (clock : Clock) :
    Service Signal where
  system := .new clock
  notify := Notify.new
  cancelled := false
  tasks := List.replicate (config.workerCount + 1) .starting
  marks := []

namespace Service

/-- An enqueue has registered its player and is about to call `notify_one`,
before it asks for the size of the pool. -/
def notifies (service : Service Signal) (caller : Nat) : Bool :=
  match service.system.nextOperation caller with
  | some .primaryLen => .signalled caller ∉ service.marks
  | _ => false

def returned (service : Service Signal) (caller : Nat) : Bool :=
  service.system.calls[caller]?.any fun call => call.program.returned?.isSome

def move (service : Service Signal) (task : Nat) (phase : TaskPhase) :
    Service Signal :=
  { service with
    tasks := service.tasks.set task phase
    marks := .polled task :: service.marks }

/-- A task leaves its `select!` to do its work once. -/
def begin (config : Config) (service : Service Signal) (task : Nat)
    (request : Request) : Option (Service Signal) :=
  (service.system.step config (.start request)).map fun system =>
    { service with
      system
      tasks := service.tasks.set task (.running service.system.calls.length)
      marks := .began task :: .polled task :: service.marks }

variable [Notify Signal]

def dropNotified (service : Service Signal) (task : Nat) (queued : Bool) :
    Signal :=
  if queued then Notify.drop service.notify task else service.notify

/-- One poll of a task: the next branch of its `select!`, in the order
shutdown, wake signal (for a task that `wakes`) and tick, or the return of its
work. -/
def pollTask (config : Config) (service : Service Signal) (task : Nat)
    (request : Request) (wakes elapsed : Bool) : Option (Service Signal) :=
  match service.tasks[task]? with
  | none | some .exited => none
  | some .starting => some (service.move task (.atShutdown false))
  | some (.atShutdown queued) =>
      if service.cancelled then
        let notify := service.dropNotified task queued
        some ({ service with notify }.move task .exited)
      else if wakes then some (service.move task (.atNotified queued))
      else some (service.move task (.atTick queued))
  | some (.atNotified queued) =>
      let polled := Notify.poll service.notify task queued
      if polled.1 then
        { service with notify := polled.2 }.begin config task request
      else some ({ service with notify := polled.2 }.move task (.atTick true))
  | some (.atTick queued) =>
      if elapsed then
        let notify := service.dropNotified task queued
        { service with notify }.begin config task request
      else some (service.move task (.asleep queued))
  | some (.asleep queued) => some (service.move task (.atShutdown queued))
  | some (.running caller) =>
      if service.returned caller then
        some (service.move task (.atShutdown false))
      else none

def runWorker (config : Config) (service : Service Signal) (workerId : Nat)
    (elapsed : Bool) : Option (Service Signal) :=
  service.pollTask config workerId (.attemptMatch workerId) true elapsed

def runReaper (config : Config) (service : Service Signal) (elapsed : Bool) :
    Option (Service Signal) :=
  service.pollTask config 0 .reaperTick false elapsed

def step (config : Config) (service : Service Signal) :
    ServiceAction → Option (Service Signal)
  | .request request =>
      if request.task = none then
        (service.system.step config (.start request)).map fun system =>
          { service with system }
      else none
  | .access caller choice =>
      if service.notifies caller then none
      else
        (service.system.step config (.step caller choice)).map fun system =>
          { service with system }
  | .tick instant unixMs =>
      (service.system.step config (.tick instant unixMs)).map fun system =>
        { service with system }
  | .notifyOne caller =>
      if service.notifies caller then
        some { service with
          notify := Notify.notifyOne service.notify
          marks := .signalled caller :: service.marks }
      else none
  | .poll task elapsed =>
      if task = 0 then service.runReaper config elapsed
      else service.runWorker config task elapsed
  | .cancel =>
      if service.cancelled then some service
      else
        some { service with
          cancelled := true
          marks := .cancelled :: service.marks }

end Service

/-- The states the service can get into. -/
abbrev ServiceRun [Notify Signal] (config : Config) (clock : Clock) :
    Service Signal → Prop :=
  Reachable (Service.step config) (spawnAll config clock) fun _ _ => True

end Tasks

end Matchmaker
