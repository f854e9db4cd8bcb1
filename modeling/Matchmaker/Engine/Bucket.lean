import Mathlib.Data.List.Sort
import Matchmaker.Player

namespace Matchmaker

open Concurrent

def maxCandidatesPerScan : Nat := 200

def maxSkillRating : Nat := 3000

def uuidNil : Uuid := 0

def uuidMax : Uuid := Fin.last _

namespace PlayerPool

def insert (player : Player) : Task Unit := do
  access (.primaryInsert player)
  access (.indexInsert player)

def remove (id : Uuid) : Task (Option Player) := do
  match ← access (.primaryRemove id) with
  | none => return none
  | some player =>
      access (.indexRemove player)
      return some player

/-- The body of the index walk: skip dead and non-waiting entries, stop at the
cap. -/
def scanEntries : List Player → List Player → Task (List Player)
  | [], candidates => return candidates
  | player :: rest, candidates => do
      if !(← access (.upgrade player)) then
        scanEntries rest candidates
      else if (← player.loadState) ≠ .waiting then
        scanEntries rest candidates
      else if maxCandidatesPerScan ≤ (candidates ++ [player]).length then
        return candidates ++ [player]
      else
        scanEntries rest (candidates ++ [player])

def sortCandidates (candidates : List Player) : List Player :=
  candidates.insertionSort fun a b => a.seedKey ≤ b.seedKey

def rangeScan (minRating maxRating : Nat) : Task (List Player) := do
  let minRating := min minRating maxSkillRating
  let maxRating := min maxRating maxSkillRating
  let entries ← access (.indexRange (minRating, uuidNil)
    (maxRating, uuidMax))
  let candidates ← scanEntries entries []
  return sortCandidates candidates

/-- `iter().filter_map(..)`: keep the waiting players that `admits` accepts. -/
def filterWaiting (admits : Player → Bool) : List Player → Task (List Player)
  | [] => return []
  | player :: rest => do
      let waiting ← player.isWaiting
      let kept ← filterWaiting admits rest
      return if waiting && admits player then player :: kept else kept

/-- `min_by` keeps the first of equal players. -/
def minBySeedKey : List Player → Option Player
  | [] => none
  | first :: rest => some (rest.foldl
      (fun best player => if player.seedKey < best.seedKey then player else best)
      first)

def oldestWaiting : Task (Option Player) := do
  let entries ← access .primaryIter
  let waiting ← filterWaiting (fun _ => true) entries
  return minBySeedKey waiting

def oldestWaitingExcludingRange (excludeMin excludeMax : Nat) :
    Task (Option Player) := do
  let entries ← access .primaryIter
  let waiting ← filterWaiting (fun player =>
    !(excludeMin ≤ player.skillRating && player.skillRating ≤ excludeMax))
    entries
  return minBySeedKey waiting

def allPlayers : Task (List Player) :=
  access .primaryIter

def len : Task Nat :=
  access .primaryLen

def contains (id : Uuid) : Task Bool :=
  access (.primaryContains id)

def get (id : Uuid) : Task (Option Player) :=
  access (.primaryGet id)

end PlayerPool

end Matchmaker
