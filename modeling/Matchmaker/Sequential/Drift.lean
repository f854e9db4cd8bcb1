import Mathlib.Order.Defs.Unbundled
import Matchmaker.Concurrent.Sequential
import Matchmaker.Memory

namespace Matchmaker

open Concurrent

/-! Tasks that run alone. Only the clock moves meanwhile, from one reading to
another that `passes` relates to it. -/

section Drift

variable {passes : Clock → Clock → Prop} {core core' core'' : Core}
  {clock clock' : Clock}

def Core.timed (core : Core) (clock : Clock) : Core := { core with clock }

@[simp] theorem Core.timed_cells (core : Core) (clock : Clock) :
    (core.timed clock).cells = core.cells := rfl

@[simp] theorem Core.timed_primary (core : Core) (clock : Clock) :
    (core.timed clock).primary = core.primary := rfl

/-- Nothing but the clock has moved. -/
def Core.Drifts (passes : Clock → Clock → Prop) (core core' : Core) : Prop :=
  ∃ clock, passes core.clock clock ∧ core' = core.timed clock

/-- At some reading of the clock from now on. -/
def Sometime (passes : Clock → Clock → Prop) (now : Clock)
    (property : Clock → Prop) : Prop :=
  ∃ clock, passes now clock ∧ property clock

theorem drifts_eq : core.Drifts Eq core' ↔ core' = core := by
  constructor
  · intro found
    obtain ⟨_, rfl, rfl⟩ := found
    rfl
  · rintro rfl
    exact ⟨core'.clock, rfl, rfl⟩

theorem sometime_eq {property : Clock → Prop} :
    Sometime Eq clock property ↔ property clock := by
  simp [Sometime]

variable [IsPreorder Clock passes]

theorem Core.Drifts.refl (core : Core) : core.Drifts passes core :=
  ⟨core.clock, refl_of passes _, rfl⟩

theorem Core.Drifts.trans (first : core.Drifts passes core')
    (second : core'.Drifts passes core'') : core.Drifts passes core'' := by
  obtain ⟨clock, passed, rfl⟩ := first
  obtain ⟨clock', passed', rfl⟩ := second
  exact ⟨clock', trans_of passes passed passed', rfl⟩

theorem Sometime.later {property : Clock → Prop} (passed : passes clock clock')
    (sometime : Sometime passes clock' property) :
    Sometime passes clock property := by
  obtain ⟨moment, passed', holds⟩ := sometime
  exact ⟨moment, trans_of passes passed passed', holds⟩

end Drift

/-- The monotonic clock does not go back. -/
def Clock.Onward (earlier later : Clock) : Prop :=
  earlier.instant ≤ later.instant

instance : IsPreorder Clock Clock.Onward where
  refl _ := Nat.le_refl _
  trans _ _ _ := Nat.le_trans

/-- The task ends as `post` says when it runs alone. -/
abbrev Alone (passes : Clock → Clock → Prop) (core : Core) (task : Task α)
    (post : α → Core → Prop) : Prop :=
  task.Ensures semantics (Core.Drifts passes) post core

/-- The task finds a value and changes nothing. -/
abbrev Finds (passes : Clock → Clock → Prop) (core : Core) (task : Task α)
    (post : α → Prop) : Prop :=
  Alone passes core task fun value core' =>
    post value ∧ core.Drifts passes core'

/-- The task ends with this value in this core, but for the clock. -/
abbrev Turns (passes : Clock → Clock → Prop) (core : Core) (task : Task α)
    (value : α) (after : Core) : Prop :=
  Alone passes core task fun value' core' =>
    value' = value ∧ after.Drifts passes core'

section Rules

variable {passes : Clock → Clock → Prop} {core after : Core}
  {task : Task α} {rest : α → Task β} {operation : Operation}

theorem alone_access_bind {rest : operation.Result → Task β}
    {post : β → Core → Prop} :
    Alone passes core (access operation >>= rest) post ↔
      ∀ clock, passes core.clock clock → ∀ choice,
        Alone passes ((core.timed clock).perform choice operation).2
          (rest ((core.timed clock).perform choice operation).1) post := by
  constructor
  · intro alone clock passed choice
    exact alone _ ⟨clock, passed, rfl⟩ choice
  · rintro each _ ⟨clock, passed, rfl⟩ choice
    exact each clock passed choice

theorem alone_access {post : operation.Result → Core → Prop} :
    Alone passes core (access operation) post ↔
      ∀ clock, passes core.clock clock → ∀ choice,
        post ((core.timed clock).perform choice operation).1
          ((core.timed clock).perform choice operation).2 :=
  @alone_access_bind _ passes core operation pure post

theorem Finds.bind {post : α → Prop} {post' : β → Core → Prop}
    (first : Finds passes core task post)
    (second : ∀ value clock, post value → passes core.clock clock →
      Alone passes (core.timed clock) (rest value) post') :
    Alone passes core (task >>= rest) post' := by
  apply Program.Ensures.bind first
  intro value _ given
  obtain ⟨found, clock, passed, rfl⟩ := given
  exact second value clock found passed

theorem Turns.bind {value : α} {post : β → Core → Prop}
    (first : Turns passes core task value after)
    (second : ∀ clock, passes after.clock clock →
      Alone passes (after.timed clock) (rest value) post) :
    Alone passes core (task >>= rest) post := by
  apply Program.Ensures.bind first
  intro _ _ found
  obtain ⟨rfl, clock, passed, rfl⟩ := found
  exact second clock passed

/-- With the clock standing still, this is what `exec` computes. -/
theorem Alone.frozen {post : α → Core → Prop}
    (alone : Alone Eq core task post) (choice : Choice) :
    post (task.exec semantics choice core).1
      (task.exec semantics choice core).2 :=
  Program.Ensures.exec alone (fun _ => drifts_eq.mpr rfl) choice

variable [IsPreorder Clock passes]

theorem finds_pure {value : α} {post : α → Prop} (holds : post value) :
    Finds passes core (pure value) post :=
  ⟨holds, .refl core⟩

theorem turns_pure (value : α) : Turns passes core (pure value) value core :=
  ⟨rfl, .refl core⟩

theorem Finds.bind' {post : α → Prop} {post' : β → Prop}
    (first : Finds passes core task post)
    (second : ∀ value clock, post value → passes core.clock clock →
      Finds passes (core.timed clock) (rest value) post') :
    Finds passes core (task >>= rest) post' := by
  apply first.bind
  intro value clock found passed
  apply (second value clock found passed).mono
  intro value' core' given
  obtain ⟨found', drifted⟩ := given
  exact ⟨found', .trans ⟨clock, passed, rfl⟩ drifted⟩

theorem finds_access_bind {rest : operation.Result → Task β} {post : β → Prop}
    (steady : ∀ clock choice,
      ((core.timed clock).perform choice operation).2 = core.timed clock)
    (each : ∀ clock, passes core.clock clock → ∀ choice,
      Finds passes (core.timed clock)
        (rest ((core.timed clock).perform choice operation).1) post) :
    Finds passes core (access operation >>= rest) post := by
  apply alone_access_bind.mpr
  intro clock passed choice
  rw [steady clock choice]
  apply (each clock passed choice).mono
  intro value core' given
  obtain ⟨found, drifted⟩ := given
  exact ⟨found, .trans ⟨clock, passed, rfl⟩ drifted⟩

end Rules

/-- The clock may show anything. -/
def Clock.Anyhow (_ _ : Clock) : Prop := True

instance : IsPreorder Clock Clock.Anyhow where
  refl _ := trivial
  trans _ _ _ _ _ := trivial

/-- Nothing but the clock and the metrics has moved. -/
def Core.Strays (core core' : Core) : Prop :=
  ∃ clock metrics, core' = { core with clock, metrics }

section Strays

variable {core core' core'' : Core}

theorem Core.Strays.refl (core : Core) : core.Strays core :=
  ⟨core.clock, core.metrics, rfl⟩

theorem Core.Strays.trans (first : core.Strays core')
    (second : core'.Strays core'') : core.Strays core'' := by
  obtain ⟨clock, metrics, rfl⟩ := first
  obtain ⟨clock', metrics', rfl⟩ := second
  exact ⟨clock', metrics', rfl⟩

/-- No operation looks at the metrics. -/
theorem Core.perform_metrics (core : Core) (metrics : Metrics)
    (choice : Choice) (operation : Operation) :
    ({ core with metrics }.perform choice operation).1 =
        (core.perform choice operation).1 ∧
      (core.perform choice operation).2.Strays
        ({ core with metrics }.perform choice operation).2 := by
  cases operation with
  | exchange player site =>
      simp only [Core.perform, Core.exchange]
      split <;> exact ⟨rfl, core.clock, metrics, rfl⟩
  | _ => exact ⟨rfl, _, _, rfl⟩

theorem Alone.strays {task : Task α} {post : α → Prop}
    (alone : Alone Clock.Anyhow core task fun value _ => post value)
    (strays : core.Strays core') :
    task.Ensures semantics Core.Strays (fun value _ => post value) core' := by
  induction task generalizing core core' with
  | pure value => exact alone
  | perform operation next induction =>
      intro drifted drifts choice
      obtain ⟨clock, metrics, rfl⟩ := strays.trans drifts
      obtain ⟨same, strayed⟩ :=
        (core.timed clock).perform_metrics metrics choice operation
      have ends := alone (core.timed clock) ⟨clock, trivial, rfl⟩ choice
      show ((next ({ core.timed clock with metrics }.perform choice
        operation).1).Ensures _ _ _ _)
      rw [same]
      exact induction _ ends strayed

theorem ensures_strays {task : Task α} {post : α → Prop}
    (ensures : task.Ensures semantics Core.Strays (fun value _ => post value)
      core) (strays : core.Strays core') :
    task.Ensures semantics Core.Strays (fun value _ => post value) core' := by
  cases task with
  | pure value => exact ensures
  | perform operation next =>
      exact fun drifted drifts => ensures drifted (strays.trans drifts)

end Strays

end Matchmaker
