import Mathlib.Init

namespace Concurrent

variable {State Action : Type}

/-- The states reached from `start` by steps that are all `permitted` in the
state they are taken in. -/
inductive Reachable (step : State → Action → Option State) (start : State)
    (permitted : State → Action → Prop) : State → Prop
  | start : Reachable step start permitted start
  | step (before : Reachable step start permitted state)
      (allowed : permitted state action)
      (moved : step state action = some state') :
      Reachable step start permitted state'

namespace Reachable

variable {step : State → Action → Option State} {start state : State}
  {permitted permitted' : State → Action → Prop}

/-- What holds at the start and is kept by every permitted step from a
reachable state holds in every reachable state. -/
theorem invariant {property : State → Prop}
    (reachable : Reachable step start permitted state)
    (initially : property start)
    (kept : ∀ {state action state'},
      Reachable step start permitted state → property state →
      permitted state action → step state action = some state' →
      property state') : property state := by
  induction reachable with
  | start => exact initially
  | step before allowed moved induction =>
      exact kept before induction allowed moved

theorem mono (reachable : Reachable step start permitted state)
    (weaken : ∀ {state action}, Reachable step start permitted state →
      permitted state action → permitted' state action) :
    Reachable step start permitted' state := by
  induction reachable with
  | start => exact .start
  | step before allowed moved induction =>
      exact .step induction (weaken before allowed) moved

theorem append {middle : State} (first : Reachable step start permitted middle)
    (second : Reachable step middle permitted' state)
    (weaken : ∀ {state action}, permitted' state action →
      permitted state action) : Reachable step start permitted state := by
  induction second with
  | start => exact first
  | step before allowed moved induction =>
      exact .step induction (weaken allowed) moved

end Reachable

/-- Run a schedule, checking that every step is permitted. -/
def schedule (step : State → Action → Option State)
    (permitted : State → Action → Bool) : State → List Action → Option State
  | state, [] => some state
  | state, action :: rest =>
      if permitted state action then
        match step state action with
        | some state' => schedule step permitted state' rest
        | none => none
      else none

theorem Reachable.schedule {step : State → Action → Option State}
    {start : State} {permitted : State → Action → Prop}
    {check : State → Action → Bool}
    (sound : ∀ state action, check state action = true →
      permitted state action) :
    ∀ {actions : List Action} {state final : State},
      Reachable step start permitted state →
      Concurrent.schedule step check state actions = some final →
      Reachable step start permitted final
  | [], state, final, reachable, ran => by
      cases ran
      exact reachable
  | action :: rest, state, final, reachable, ran => by
      rw [Concurrent.schedule] at ran
      split at ran
      · rename_i checked
        cases moved : step state action with
        | none => simp [moved] at ran
        | some state' =>
            rw [moved] at ran
            exact Reachable.schedule sound
              (reachable.step (sound state action checked) moved) ran
      · cases ran

end Concurrent
