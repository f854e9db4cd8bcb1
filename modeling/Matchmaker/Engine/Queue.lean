import Matchmaker.Engine.Matcher

namespace Matchmaker

open Concurrent

inductive EnqueueError
  | alreadyQueued (id : Uuid)
  | invalidSkillRating (skillRating limit : Nat)
deriving DecidableEq

inductive CancelError
  | notFound (id : Uuid)
  | currentlyBeingMatched (id : Uuid)
deriving DecidableEq

namespace MatchmakerCore

def enqueue (id : Uuid) (skillRating : Nat) :
    Task (Except EnqueueError Nat) := do
  if maxSkillRating < skillRating then
    return .error (.invalidSkillRating skillRating maxSkillRating)
  else if ← PlayerPool.contains id then
    return .error (.alreadyQueued id)
  else
    let player ← Player.new id skillRating
    PlayerPool.insert player
    fetchAdd .totalPlayersEnqueued 1
    access (.addQueueSize 1)
    return .ok (← PlayerPool.len)

def cancel (id : Uuid) : Task (Except CancelError Unit) := do
  match ← PlayerPool.get id with
  | none => return .error (.notFound id)
  | some player =>
      if !(← player.tryEvict) then
        return .error (.currentlyBeingMatched id)
      else
        let _ ← PlayerPool.remove id
        access (.addQueueSize (-1))
        fetchAdd .totalPlayersCancelled 1
        return .ok ()

/-- Read under the lock of the history, so at one moment. -/
def recentMatches (core : Core) (limit : Nat) : List Match :=
  core.history.reverse.take limit

end MatchmakerCore

end Matchmaker
