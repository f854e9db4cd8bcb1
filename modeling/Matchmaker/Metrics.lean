import Mathlib.Algebra.Group.Nat.Defs

namespace Matchmaker

/-- A counter holds all that was ever added to it; what it shows is `load`. -/
structure Metrics where
  totalPlayersEnqueued : Nat
  totalPlayersCancelled : Nat
  totalMatchesCreated : Nat
  totalPlayersMatched : Nat
  matchAttemptsInsufficient : Nat
  matchAttemptsClaimFailed : Nat
  workerCyclesTotal : Nat
  totalStaleClaimsRecovered : Nat
  currentQueueSize : Int
  totalWaitTimeMs : Nat
  skillSpreadSum : Nat
  skillSpreadCount : Nat
  teamDeltaSum : Nat
  teamDeltaCount : Nat
deriving DecidableEq

def Metrics.new : Metrics where
  totalPlayersEnqueued := 0
  totalPlayersCancelled := 0
  totalMatchesCreated := 0
  totalPlayersMatched := 0
  matchAttemptsInsufficient := 0
  matchAttemptsClaimFailed := 0
  workerCyclesTotal := 0
  totalStaleClaimsRecovered := 0
  currentQueueSize := 0
  totalWaitTimeMs := 0
  skillSpreadSum := 0
  skillSpreadCount := 0
  teamDeltaSum := 0
  teamDeltaCount := 0

inductive Counter
  | totalPlayersEnqueued
  | totalPlayersCancelled
  | totalMatchesCreated
  | totalPlayersMatched
  | matchAttemptsInsufficient
  | matchAttemptsClaimFailed
  | workerCyclesTotal
  | totalStaleClaimsRecovered
  | totalWaitTimeMs
  | skillSpreadSum
  | skillSpreadCount
  | teamDeltaSum
  | teamDeltaCount
deriving DecidableEq

def Metrics.fetchAdd (metrics : Metrics) (amount : Nat) : Counter → Metrics
  | .totalPlayersEnqueued => { metrics with
      totalPlayersEnqueued := metrics.totalPlayersEnqueued + amount }
  | .totalPlayersCancelled => { metrics with
      totalPlayersCancelled := metrics.totalPlayersCancelled + amount }
  | .totalMatchesCreated => { metrics with
      totalMatchesCreated := metrics.totalMatchesCreated + amount }
  | .totalPlayersMatched => { metrics with
      totalPlayersMatched := metrics.totalPlayersMatched + amount }
  | .matchAttemptsInsufficient => { metrics with
      matchAttemptsInsufficient := metrics.matchAttemptsInsufficient + amount }
  | .matchAttemptsClaimFailed => { metrics with
      matchAttemptsClaimFailed := metrics.matchAttemptsClaimFailed + amount }
  | .workerCyclesTotal => { metrics with
      workerCyclesTotal := metrics.workerCyclesTotal + amount }
  | .totalStaleClaimsRecovered => { metrics with
      totalStaleClaimsRecovered := metrics.totalStaleClaimsRecovered + amount }
  | .totalWaitTimeMs => { metrics with
      totalWaitTimeMs := metrics.totalWaitTimeMs + amount }
  | .skillSpreadSum => { metrics with
      skillSpreadSum := metrics.skillSpreadSum + amount }
  | .skillSpreadCount => { metrics with
      skillSpreadCount := metrics.skillSpreadCount + amount }
  | .teamDeltaSum => { metrics with
      teamDeltaSum := metrics.teamDeltaSum + amount }
  | .teamDeltaCount => { metrics with
      teamDeltaCount := metrics.teamDeltaCount + amount }

def Metrics.total (metrics : Metrics) : Counter → Nat
  | .totalPlayersEnqueued => metrics.totalPlayersEnqueued
  | .totalPlayersCancelled => metrics.totalPlayersCancelled
  | .totalMatchesCreated => metrics.totalMatchesCreated
  | .totalPlayersMatched => metrics.totalPlayersMatched
  | .matchAttemptsInsufficient => metrics.matchAttemptsInsufficient
  | .matchAttemptsClaimFailed => metrics.matchAttemptsClaimFailed
  | .workerCyclesTotal => metrics.workerCyclesTotal
  | .totalStaleClaimsRecovered => metrics.totalStaleClaimsRecovered
  | .totalWaitTimeMs => metrics.totalWaitTimeMs
  | .skillSpreadSum => metrics.skillSpreadSum
  | .skillSpreadCount => metrics.skillSpreadCount
  | .teamDeltaSum => metrics.teamDeltaSum
  | .teamDeltaCount => metrics.teamDeltaCount

theorem Metrics.total_fetchAdd (metrics : Metrics) (amount : Nat)
    (counter other : Counter) :
    (metrics.fetchAdd amount counter).total other =
      metrics.total other + if other = counter then amount else 0 := by
  cases counter <;> cases other <;> rfl

/-- What a counter shows. The sum of the waits wraps at 2^64, as one clock
reading can get it there; to reduce the sum comes to wrapping at every
addition. The others would take 2^64 events, or 2^64 / 15000 matches. -/
def Metrics.load (metrics : Metrics) : Counter → Nat
  | .totalWaitTimeMs => metrics.totalWaitTimeMs % 2 ^ 64
  | counter => metrics.total counter

theorem Metrics.load_le (metrics : Metrics) (counter : Counter) :
    metrics.load counter ≤ metrics.total counter := by
  cases counter <;> first
    | exact Nat.le_refl _
    | exact Nat.mod_le ..

theorem Metrics.load_eq {metrics : Metrics}
    (small : metrics.totalWaitTimeMs < 2 ^ 64) (counter : Counter) :
    metrics.load counter = metrics.total counter := by
  cases counter <;> first
    | rfl
    | exact Nat.mod_eq_of_lt small

structure MetricsSnapshot where
  totalPlayersEnqueued : Nat
  totalPlayersCancelled : Nat
  totalMatchesCreated : Nat
  totalPlayersMatched : Nat
  matchAttemptsInsufficient : Nat
  matchAttemptsClaimFailed : Nat
  workerCyclesTotal : Nat
  totalStaleClaimsRecovered : Nat
  currentQueueSize : Int
  totalWaitTimeMs : Nat
  avgWaitMs : Nat
  avgSkillSpread : Nat
  avgTeamDelta : Nat
deriving DecidableEq

def checkedDiv (dividend divisor : Nat) : Option Nat :=
  if divisor = 0 then none else some (dividend / divisor)

/-- The counters are read one by one; here nothing changes them meanwhile. -/
def Metrics.snapshot (metrics : Metrics) : MetricsSnapshot where
  totalPlayersEnqueued := metrics.totalPlayersEnqueued
  totalPlayersCancelled := metrics.totalPlayersCancelled
  totalMatchesCreated := metrics.totalMatchesCreated
  totalPlayersMatched := metrics.totalPlayersMatched
  matchAttemptsInsufficient := metrics.matchAttemptsInsufficient
  matchAttemptsClaimFailed := metrics.matchAttemptsClaimFailed
  workerCyclesTotal := metrics.workerCyclesTotal
  totalStaleClaimsRecovered := metrics.totalStaleClaimsRecovered
  currentQueueSize := metrics.currentQueueSize
  totalWaitTimeMs := metrics.load .totalWaitTimeMs
  avgWaitMs := (checkedDiv (metrics.load .totalWaitTimeMs)
    metrics.totalPlayersMatched).getD 0
  avgSkillSpread :=
    (checkedDiv metrics.skillSpreadSum metrics.skillSpreadCount).getD 0
  avgTeamDelta :=
    (checkedDiv metrics.teamDeltaSum metrics.teamDeltaCount).getD 0

end Matchmaker
