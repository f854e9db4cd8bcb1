import Matchmaker.Config
import Matchmaker.Engine.Bucket

namespace Matchmaker

open Concurrent

/-- The half-width for a player that has waited `elapsedMs`. -/
def windowAfter (config : Config) (elapsedMs : Nat) : Nat :=
  if elapsedMs < config.relaxationStage1Ms then config.relaxationStage1Delta
  else if elapsedMs < config.relaxationStage2Ms then
    config.relaxationStage2Delta
  else if elapsedMs < config.relaxationStage3Ms then
    config.relaxationStage3Delta
  else if elapsedMs < config.relaxationStage4Ms then
    config.relaxationStage4Delta
  else config.relaxationStage5Delta

def stageAfter (config : Config) (elapsedMs : Nat) : Nat :=
  if elapsedMs < config.relaxationStage1Ms then 1
  else if elapsedMs < config.relaxationStage2Ms then 2
  else if elapsedMs < config.relaxationStage3Ms then 3
  else if elapsedMs < config.relaxationStage4Ms then 4
  else 5

def relaxationWindow (joinTimestamp : Instant) (config : Config) :
    Task Nat := do
  return windowAfter config (← elapsedMs joinTimestamp)

def relaxationStage (joinTimestamp : Instant) (config : Config) :
    Task Nat := do
  return stageAfter config (← elapsedMs joinTimestamp)

/-- `saturating_sub`, and `saturating_add` in `u32` cut at the top rating. -/
def boundsWithin (skillRating window : Nat) : Nat × Nat :=
  (skillRating - window,
    min (min (skillRating + window) (2 ^ 32 - 1)) maxSkillRating)

def scanBounds (skillRating : Nat) (joinTimestamp : Instant)
    (config : Config) : Task (Nat × Nat) := do
  let window ← relaxationWindow joinTimestamp config
  return boundsWithin skillRating window

end Matchmaker
