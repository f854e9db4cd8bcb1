import Mathlib.Order.ConditionallyCompleteLattice.Basic
import Mathlib.Data.Int.ConditionallyCompleteOrder
import Matchmaker.Engine.Relaxation

namespace Matchmaker

open Concurrent

/-! The longer a player waits, the wider the window. -/

/-- The delta that belongs to a stage. -/
def Config.stageDelta (config : Config) : Nat → Nat
  | 0 | 1 => config.relaxationStage1Delta
  | 2 => config.relaxationStage2Delta
  | 3 => config.relaxationStage3Delta
  | 4 => config.relaxationStage4Delta
  | _ => config.relaxationStage5Delta

section Stages

variable {config : Config}

theorem stageAfter_within (elapsedMs : Nat) :
    1 ≤ stageAfter config elapsedMs ∧ stageAfter config elapsedMs ≤ 5 := by
  unfold stageAfter
  split_ifs <;> decide

/-- The two cascades take the same branch. -/
theorem windowAfter_eq (elapsedMs : Nat) :
    windowAfter config elapsedMs =
      config.stageDelta (stageAfter config elapsedMs) := by
  unfold windowAfter stageAfter
  split_ifs <;> rfl

theorem stageAfter_monotone : Monotone (stageAfter config) := by
  intro earlier later longer
  unfold stageAfter
  split_ifs <;> omega

theorem Config.Staged.stageDelta_monotone (staged : config.Staged) :
    Monotone config.stageDelta := by
  apply monotone_nat_of_le_succ
  intro stage
  match stage with
  | 0 => exact le_rfl
  | 1 => exact staged.stage1Delta
  | 2 => exact staged.stage2Delta
  | 3 => exact staged.stage3Delta
  | 4 => exact staged.stage4Delta
  | _ + 5 => exact le_rfl

theorem Config.Staged.windowAfter_monotone (staged : config.Staged) :
    Monotone (windowAfter config) := by
  intro earlier later longer
  rw [windowAfter_eq, windowAfter_eq]
  exact staged.stageDelta_monotone (stageAfter_monotone longer)

theorem Config.Staged.windowAfter_within (staged : config.Staged)
    (elapsedMs : Nat) :
    config.relaxationStage1Delta ≤ windowAfter config elapsedMs ∧
      windowAfter config elapsedMs ≤ config.relaxationStage5Delta := by
  have stages := @stageAfter_within config elapsedMs
  rw [windowAfter_eq]
  constructor
  · exact staged.stageDelta_monotone stages.1
  · exact staged.stageDelta_monotone stages.2

end Stages

section Bounds

variable {skillRating window window' : Nat}

/-- Neither saturation nor the clamp is visible in the result. -/
theorem boundsWithin_exact (bounded : skillRating ≤ maxSkillRating) :
    Set.Icc ((boundsWithin skillRating window).1 : ℤ)
        (boundsWithin skillRating window).2 =
      Set.Icc ((skillRating : ℤ) - window) (skillRating + window) ∩
        Set.Icc 0 (maxSkillRating : ℤ) := by
  ext rating
  simp only [boundsWithin, maxSkillRating, Set.mem_inter_iff, Set.mem_Icc]
    at *
  omega

theorem boundsWithin_contains (bounded : skillRating ≤ maxSkillRating) :
    skillRating ∈ Set.Icc (boundsWithin skillRating window).1
      (boundsWithin skillRating window).2 := by
  simp only [boundsWithin, maxSkillRating, Set.mem_Icc] at *
  omega

theorem boundsWithin_nested (wider : window ≤ window') :
    Set.Icc (boundsWithin skillRating window).1
        (boundsWithin skillRating window).2 ⊆
      Set.Icc (boundsWithin skillRating window').1
        (boundsWithin skillRating window').2 := by
  apply Set.Icc_subset_Icc
  · exact Nat.sub_le_sub_left wider skillRating
  · simp only [boundsWithin]
    omega

end Bounds

/-- What the three functions tell about a player at one moment. -/
structure Relaxes (config : Config) (skillRating window stage : Nat)
    (bounds : Nat × Nat) : Prop where
  stages : 1 ≤ stage ∧ stage ≤ 5
  delta : window = config.stageDelta stage
  least : config.relaxationStage1Delta ≤ window
  most : window ≤ config.relaxationStage5Delta
  within : Set.Icc bounds.1 bounds.2 ⊆ Set.Icc 0 maxSkillRating
  contains : skillRating ∈ Set.Icc bounds.1 bounds.2
  exact : Set.Icc (bounds.1 : ℤ) bounds.2 =
    Set.Icc ((skillRating : ℤ) - window) (skillRating + window) ∩
      Set.Icc 0 (maxSkillRating : ℤ)

theorem Config.Staged.relaxes {config : Config} (staged : config.Staged)
    {skillRating : Nat} (bounded : skillRating ≤ maxSkillRating)
    (elapsedMs : Nat) :
    Relaxes config skillRating (windowAfter config elapsedMs)
      (stageAfter config elapsedMs)
      (boundsWithin skillRating (windowAfter config elapsedMs)) := by
  obtain ⟨least, most⟩ := staged.windowAfter_within elapsedMs
  exact {
    stages := stageAfter_within elapsedMs
    delta := windowAfter_eq elapsedMs
    least
    most
    within := Set.Icc_subset_Icc (Nat.zero_le _) (Nat.min_le_right ..)
    contains := boundsWithin_contains bounded
    exact := boundsWithin_exact bounded }

/-- Two looks at a player of this rating, the second after a longer wait. -/
theorem relaxation_widens {config : Config}
    (accepted : config.validate = .ok ()) {skillRating : Nat}
    (bounded : skillRating ≤ maxSkillRating) (choice choice' : Choice)
    {core core' : Core} {joined joined' : Instant}
    (longer : core.clock.instant.msSince joined ≤
      core'.clock.instant.msSince joined') :
    let window :=
      ((relaxationWindow joined config).exec semantics choice core).1
    let window' :=
      ((relaxationWindow joined' config).exec semantics choice' core').1
    let stage :=
      ((relaxationStage joined config).exec semantics choice core).1
    let stage' :=
      ((relaxationStage joined' config).exec semantics choice' core').1
    let bounds :=
      ((scanBounds skillRating joined config).exec semantics choice core).1
    let bounds' :=
      ((scanBounds skillRating joined' config).exec semantics choice' core').1
    window ≤ window' ∧ stage ≤ stage' ∧
      Set.Icc bounds.1 bounds.2 ⊆ Set.Icc bounds'.1 bounds'.2 ∧
      Relaxes config skillRating window stage bounds ∧
      Relaxes config skillRating window' stage' bounds' := by
  have staged := Config.validate_staged accepted
  have wider := staged.windowAfter_monotone longer
  exact ⟨wider, stageAfter_monotone longer, boundsWithin_nested wider,
    staged.relaxes bounded _, staged.relaxes bounded _⟩

/-- A player of rating 1450 on arrival, and after twenty seconds. -/
theorem relaxation_widens_default :
    let choice : Choice := { keptAlive := false, uuid := 0, arrange := id }
    let arrival := Core.new ⟨0, 1000⟩
    let later := Core.new ⟨20000000000, 21000⟩
    let bounds := ((scanBounds 1450 0 .default).exec semantics choice arrival).1
    let bounds' := ((scanBounds 1450 0 .default).exec semantics choice later).1
    bounds = (1400, 1500) ∧ bounds' = (1250, 1650) ∧
      Set.Icc bounds.1 bounds.2 ⊆ Set.Icc bounds'.1 bounds'.2 :=
  ⟨by decide, by decide,
    (@relaxation_widens .default rfl 1450 (by decide) _ _ _ _ _ _
      (by decide)).2.2.1⟩

end Matchmaker
