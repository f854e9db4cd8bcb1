import Mathlib.Algebra.BigOperators.Ring.Finset
import Matchmaker.Engine.Accesses
import Matchmaker.Protocol.Runs

namespace Matchmaker

open Concurrent

/-! What the calls add to the metrics, and what they add it for. -/

/-- Metrics, beside the numbers of matches that were pushed to the history and
of claims that were reset. -/
structure Books where
  metrics : Metrics
  pushed : Nat
  resets : Nat

namespace Books

def new : Books where
  metrics := .new
  pushed := 0
  resets := 0

def next (books : Books) :
    (operation : Operation) → operation.Result → Books
  | .exchange _ (.reaperReset _), true =>
      { books with resets := books.resets + 1 }
  | .pushHistory .., _ => { books with pushed := books.pushed + 1 }
  | .fetchAdd counter amount, _ =>
      { books with metrics := books.metrics.fetchAdd amount counter }
  | .addQueueSize amount, _ =>
      { books with metrics := { books.metrics with
        currentQueueSize := books.metrics.currentQueueSize + amount } }
  | _, _ => books

structure Balanced (books : Books) : Prop where
  queue : (books.metrics.totalPlayersEnqueued : Int) =
    books.metrics.totalPlayersCancelled + books.metrics.totalPlayersMatched +
      books.metrics.currentQueueSize
  matched : books.metrics.totalPlayersMatched =
    matchSize * books.metrics.totalMatchesCreated
  spreads : books.metrics.skillSpreadCount = books.metrics.totalMatchesCreated
  deltas : books.metrics.teamDeltaCount = books.metrics.totalMatchesCreated
  pushed : books.pushed = books.metrics.totalMatchesCreated
  cycles : books.metrics.workerCyclesTotal =
    books.metrics.totalMatchesCreated +
      books.metrics.matchAttemptsInsufficient +
        books.metrics.matchAttemptsClaimFailed
  recovered : books.metrics.totalStaleClaimsRecovered = books.resets

inductive Law
  | queue
  | matched
  | spreads
  | deltas
  | pushed
  | cycles
  | recovered

/-- By how much the books miss an equation. -/
def gap (books : Books) : Law → Int
  | .queue => books.metrics.totalPlayersEnqueued -
      (books.metrics.totalPlayersCancelled +
        books.metrics.totalPlayersMatched + books.metrics.currentQueueSize)
  | .matched => books.metrics.totalPlayersMatched -
      matchSize * books.metrics.totalMatchesCreated
  | .spreads => books.metrics.skillSpreadCount -
      books.metrics.totalMatchesCreated
  | .deltas => books.metrics.teamDeltaCount - books.metrics.totalMatchesCreated
  | .pushed => books.pushed - books.metrics.totalMatchesCreated
  | .cycles => books.metrics.workerCyclesTotal -
      (books.metrics.totalMatchesCreated +
        books.metrics.matchAttemptsInsufficient +
          books.metrics.matchAttemptsClaimFailed)
  | .recovered => books.metrics.totalStaleClaimsRecovered - books.resets

theorem balanced_iff {books : Books} :
    books.Balanced ↔ ∀ law, books.gap law = 0 := by
  constructor
  · rintro ⟨queue, matched, spreads, deltas, pushed, cycles, recovered⟩ law
    cases law <;> simp only [gap] <;> omega
  · intro none
    have queue := none .queue
    have matched := none .matched
    have spreads := none .spreads
    have deltas := none .deltas
    have pushed := none .pushed
    have cycles := none .cycles
    have recovered := none .recovered
    simp only [gap] at queue matched spreads deltas pushed cycles recovered
    constructor <;> omega

theorem gap_new (law : Law) : new.gap law = 0 := by
  cases law <;> rfl

theorem gap_next (books : Books) (law : Law) (operation : Operation)
    (result : operation.Result) :
    (books.next operation result).gap law =
      books.gap law + (new.next operation result).gap law := by
  have unmoved : books.gap law = books.gap law + new.gap law := by
    rw [gap_new, Int.add_zero]
  cases operation with
  | exchange player site =>
      cases site with
      | reaperReset nowMs =>
          cases result with
          | false => exact unmoved
          | true =>
              cases law <;> simp only [next, gap, new, Metrics.new] <;> omega
      | _ => exact unmoved
  | fetchAdd counter amount =>
      cases counter <;> cases law <;>
        simp only [next, gap, new, Metrics.new, Metrics.fetchAdd,
          matchSize] <;> omega
  | addQueueSize | pushHistory =>
      cases law <;> simp only [next, gap, new, Metrics.new] <;> omega
  | _ => exact unmoved

end Books

def Exchange.resets : Exchange → Bool
  | .reaperReset _ => true
  | _ => false

/-- The successful resets of the Reaper. -/
def resets (trace : Trace) : List Transfer :=
  (transfers trace).filter fun transfer => transfer.site.resets

/-- What one call has entered, and the players it has put into the index,
matched or evicted. -/
structure Tally extends Books where
  indexed : List Player
  settled : List Player

namespace Tally

def start : Tally where
  toBooks := .new
  indexed := []
  settled := []

def next (tally : Tally) (operation : Operation) (result : operation.Result) :
    Tally where
  toBooks := tally.toBooks.next operation result
  indexed :=
    match operation with
    | .indexInsert player => tally.indexed ++ [player]
    | _ => tally.indexed
  settled :=
    match operation, result with
    | .exchange player .markMatched, _ => tally.settled ++ [player]
    | .exchange player .tryEvict, true => tally.settled ++ [player]
    | _, _ => tally.settled

end Tally

/-- A call changes the gauge once, by the players it has brought or taken. -/
def Operation.Entered (tally : Tally) : Operation → Prop
  | .addQueueSize amount => amount ≠ 0 ∧
      tally.metrics.currentQueueSize = 0 ∧
      amount = tally.indexed.length - tally.settled.length
  | _ => True

@[reducible] def ledger : Contract memory where
  Role := Unit
  Ghost := Tally
  initial := .start
  next := Tally.next
  Allowed := fun _ tally operation => operation.Entered tally
  Credible := fun _ _ => True

abbrev tallyOf (caller : Nat) (trace : Trace) : Tally :=
  ledger.ghost caller trace

theorem enters_access_bind {post : α → Tally → Prop} {operation : Operation}
    {rest : operation.Result → Task α} {tally : Tally} :
    ledger.Obeys () post (access operation >>= rest) tally ↔
      operation.Entered tally ∧ ∀ result, True →
        ledger.Obeys () post (rest result) (tally.next operation result) :=
  Iff.rfl

/-- Operations that no book speaks of. -/
def Operation.Counted : Operation → Bool
  | .exchange _ .markMatched | .exchange _ .tryEvict => true
  | .exchange _ (.reaperReset _) => true
  | .indexInsert _ | .pushHistory .. | .fetchAdd .. | .addQueueSize _ => true
  | _ => false

abbrev Uncounted (task : Task α) (post : α → Prop) : Prop :=
  task.Yields (fun operation : Operation => operation.Counted = false) post

theorem Tally.next_uncounted {operation : Operation} (tally : Tally)
    (result : operation.Result) (uncounted : operation.Counted = false) :
    tally.next operation result = tally := by
  cases operation with
  | exchange player site =>
      cases site <;> first
        | rfl
        | cases uncounted
  | _ => first
    | rfl
    | cases uncounted

theorem Uncounted.enters {task : Task α} {post : α → Prop}
    (uncounted : Uncounted task post) {tally : Tally} :
    ledger.Obeys () (fun value later => post value ∧ later = tally) task
      tally := by
  refine Contract.Obeys.of_yields
    (fun {first second third} (left : second = first)
      (right : third = second) => right.trans left) ?_ ?_ uncounted rfl
  · intro operation _ quiet
    cases operation <;> first
      | exact trivial
      | cases quiet
  · exact fun operation tally result quiet =>
      Tally.next_uncounted tally result quiet

theorem Reads.uncounted {task : Task α} {post : α → Prop}
    (reads : Reads task post) : Uncounted task post := by
  apply reads.permit
  intro operation reads
  cases operation <;> first
    | rfl
    | cases reads

theorem Reads.enters {task : Task α} {post : α → Prop}
    (reads : Reads task post) {tally : Tally} :
    ledger.Obeys () (fun value later => post value ∧ later = tally) task
      tally :=
  reads.uncounted.enters

section Tasks

variable {tally : Tally}

theorem Player.enters_markMatched (player : Player) :
    ledger.Obeys ()
      (fun _ later => later =
        { tally with settled := tally.settled ++ [player] })
      player.markMatched tally := by
  refine enters_access_bind.mpr ⟨trivial, fun now _ => ?_⟩
  refine enters_access_bind.mpr ⟨trivial, fun _ _ => ?_⟩
  exact enters_access_bind.mpr ⟨trivial, fun _ _ => rfl⟩

theorem enters_marking (claimed : List Player) :
    ledger.Obeys ()
      (fun _ later => later =
        { tally with settled := tally.settled ++ claimed })
      (forM claimed Player.markMatched) tally := by
  induction claimed generalizing tally with
  | nil =>
      show tally = _
      rw [List.append_nil]
  | cons player rest induction =>
      rw [List.forM_cons]
      apply player.enters_markMatched.bind
      rintro _ _ rfl
      apply induction.mono
      rintro _ _ rfl
      rw [List.append_assoc, List.singleton_append]

/-- What the books hold once the metrics tell of one more match. -/
def Books.complete (books : Books) (completedMatch : Match)
    (waitTimesMs : List Nat) (skillSpread : Nat) : Books where
  metrics := { books.metrics with
    totalMatchesCreated := books.metrics.totalMatchesCreated + 1
    totalPlayersMatched := books.metrics.totalPlayersMatched + matchSize
    currentQueueSize := books.metrics.currentQueueSize + -matchSize
    totalWaitTimeMs :=
      books.metrics.totalWaitTimeMs + waitTimesMs.sum % 2 ^ 64
    skillSpreadSum := books.metrics.skillSpreadSum + skillSpread
    skillSpreadCount := books.metrics.skillSpreadCount + 1
    teamDeltaSum := books.metrics.teamDeltaSum + completedMatch.teamDelta
    teamDeltaCount := books.metrics.teamDeltaCount + 1 }
  pushed := books.pushed
  resets := books.resets

theorem enters_updateMetricsOnSuccess (completedMatch : Match)
    (waitTimesMs : List Nat) (skillSpread : Nat)
    (fresh : tally.metrics.currentQueueSize = 0)
    (settled : tally.settled.length = matchSize)
    (unindexed : tally.indexed = []) :
    ledger.Obeys ()
      (fun _ later => later.toBooks =
        tally.toBooks.complete completedMatch waitTimesMs skillSpread)
      (updateMetricsOnSuccess completedMatch waitTimesMs skillSpread)
      tally := by
  refine enters_access_bind.mpr ⟨trivial, fun _ _ => ?_⟩
  refine enters_access_bind.mpr ⟨trivial, fun _ _ => ?_⟩
  refine enters_access_bind.mpr ⟨⟨by decide, fresh, ?_⟩, fun _ _ => ?_⟩
  · show -(matchSize : Int) = (tally.indexed.length : Int) -
      (tally.settled.length : Int)
    rw [settled, unindexed]
    rfl
  · iterate 4 refine enters_access_bind.mpr ⟨trivial, fun _ _ => ?_⟩
    refine ⟨trivial, fun _ _ => ?_⟩
    show Tally.toBooks (Tally.next _ _ _) = _
    simp only [Tally.next, Books.next, Metrics.fetchAdd, Books.complete]

theorem enters_completeMatch (ctx : WorkerContext) (state : WorkerState)
    {claimed : List Player} (ten : claimed.length = matchSize)
    (fresh : tally.metrics.currentQueueSize = 0)
    (unsettled : tally.settled = []) (unindexed : tally.indexed = []) :
    ledger.Obeys ()
      (fun _ later => ∃ completedMatch waitTimesMs skillSpread,
        later.toBooks = { tally.toBooks with pushed := tally.pushed + 1 }.complete
          completedMatch waitTimesMs skillSpread)
      (completeMatch ctx state claimed) tally := by
  apply (enters_marking claimed).bind
  rintro _ _ rfl
  apply (reads_buildMatch claimed _).enters.bind
  rintro ⟨completedMatch, waitTimesMs, skillSpread⟩ _ ⟨_, rfl⟩
  have removing : Uncounted (forM claimed fun player => do
      let _ ← PlayerPool.remove player.id) fun _ => True :=
    yields_removing claimed (fun _ => rfl) fun _ => rfl
  apply removing.enters.bind
  intro _ _ found
  obtain ⟨_, rfl⟩ := found
  refine enters_access_bind.mpr ⟨trivial, fun _ _ => ?_⟩
  have settled : (tally.settled ++ claimed).length = matchSize := by
    rw [unsettled, List.nil_append, ten]
  refine Contract.Obeys.bind
    (enters_updateMetricsOnSuccess _ _ _ fresh settled unindexed) ?_
  exact fun _ later complete => ⟨_, _, _, complete⟩

theorem enters_attemptMatch (ctx : WorkerContext) (state : WorkerState) :
    ledger.Obeys () (fun _ later => later.Balanced) (attemptMatch ctx state)
      .start := by
  apply (reads_selectSeed ctx state).enters.bind
  rintro (_ | seed) _ ⟨_, rfl⟩
  · exact ⟨rfl, rfl, rfl, rfl, rfl, rfl, rfl⟩
  apply (reads_scanBounds _ _ _).enters.bind
  rintro ⟨minRating, maxRating⟩ _ ⟨_, rfl⟩
  apply (reads_relaxationStage _ _).enters.bind
  intro stage _ found
  obtain ⟨_, rfl⟩ := found
  refine enters_access_bind.mpr ⟨trivial, fun _ _ => ?_⟩
  apply (PlayerPool.reads_rangeScan _ _).enters.bind
  intro candidates _ found
  obtain ⟨_, rfl⟩ := found
  dsimp only
  split
  · refine enters_access_bind.mpr ⟨trivial, fun _ _ => ?_⟩
    exact ⟨rfl, rfl, rfl, rfl, rfl, rfl, rfl⟩
  · apply (reads_access rfl).enters.bind
    intro nowMs _ found
    obtain ⟨_, rfl⟩ := found
    have claiming : Uncounted
        (claimCandidates ctx.workerId nowMs candidates []) _ :=
      yields_claimCandidates (fun player => player.yields_tryClaim rfl rfl rfl)
        candidates (Nat.zero_le _)
    apply claiming.enters.bind
    intro claimed _ found
    obtain ⟨⟨bound, _⟩, rfl⟩ := found
    split
    · have releasing : Uncounted (forM claimed Player.releaseClaim) _ :=
        Program.Yields.forM (fun player =>
          player.yields_releaseClaim rfl rfl rfl) claimed
      apply releasing.enters.bind
      intro _ _ found
      obtain ⟨_, rfl⟩ := found
      refine enters_access_bind.mpr ⟨trivial, fun _ _ => ?_⟩
      exact ⟨rfl, rfl, rfl, rfl, rfl, rfl, rfl⟩
    · apply (enters_completeMatch ctx state (by omega) rfl rfl rfl).mono
      intro _ later found
      obtain ⟨completedMatch, waitTimesMs, skillSpread, complete⟩ := found
      rw [complete]
      exact ⟨rfl, rfl, rfl, rfl, rfl, rfl, rfl⟩

theorem MatchmakerCore.enters_enqueue (id : Uuid) (skillRating : Nat) :
    ledger.Obeys () (fun _ later => later.Balanced)
      (MatchmakerCore.enqueue id skillRating) .start := by
  unfold MatchmakerCore.enqueue
  split
  · exact ⟨rfl, rfl, rfl, rfl, rfl, rfl, rfl⟩
  · refine enters_access_bind.mpr ⟨trivial, ?_⟩
    rintro (_ | _) _
    · iterate 5 refine enters_access_bind.mpr ⟨trivial, fun _ _ => ?_⟩
      refine enters_access_bind.mpr ⟨⟨by decide, rfl, rfl⟩, fun _ _ => ?_⟩
      refine enters_access_bind.mpr ⟨trivial, fun _ _ => ?_⟩
      exact ⟨rfl, rfl, rfl, rfl, rfl, rfl, rfl⟩
    · exact ⟨rfl, rfl, rfl, rfl, rfl, rfl, rfl⟩

theorem MatchmakerCore.enters_cancel (id : Uuid) :
    ledger.Obeys () (fun _ later => later.Balanced)
      (MatchmakerCore.cancel id) .start := by
  refine enters_access_bind.mpr ⟨trivial, ?_⟩
  rintro (_ | player) _
  · exact ⟨rfl, rfl, rfl, rfl, rfl, rfl, rfl⟩
  · refine enters_access_bind.mpr ⟨trivial, ?_⟩
    rintro (_ | _) _
    · exact ⟨rfl, rfl, rfl, rfl, rfl, rfl, rfl⟩
    · have removing : Uncounted (PlayerPool.remove id) _ :=
        PlayerPool.yields_remove rfl fun _ => rfl
      apply removing.enters.bind
      intro _ _ found
      obtain ⟨_, rfl⟩ := found
      refine enters_access_bind.mpr ⟨⟨by decide, rfl, rfl⟩, fun _ _ => ?_⟩
      refine enters_access_bind.mpr ⟨trivial, fun _ _ => ?_⟩
      exact ⟨rfl, rfl, rfl, rfl, rfl, rfl, rfl⟩

theorem enters_reapPlayer (nowMs staleClaimTimeoutMs : Nat)
    (player : Player) :
    ledger.Obeys ()
      (fun recovered later => later =
        { tally with resets := tally.resets + recovered.toNat })
      (reapPlayer nowMs staleClaimTimeoutMs player) tally := by
  refine enters_access_bind.mpr ⟨trivial, fun state _ => ?_⟩
  split
  · rfl
  · refine enters_access_bind.mpr ⟨trivial, fun claimTs _ => ?_⟩
    dsimp only
    split
    · rfl
    · split
      · refine enters_access_bind.mpr ⟨trivial, fun _ _ => ?_⟩
        refine enters_access_bind.mpr ⟨trivial, ?_⟩
        rintro (_ | _) _
        · rfl
        · refine enters_access_bind.mpr ⟨trivial, fun _ _ => ?_⟩
          exact enters_access_bind.mpr ⟨trivial, fun _ _ => rfl⟩
      · rfl

theorem enters_reapPlayers (nowMs staleClaimTimeoutMs : Nat)
    (players : List Player) (recovered : Nat) :
    ledger.Obeys ()
      (fun total later => ∃ more, total = recovered + more ∧
        later = { tally with resets := tally.resets + more })
      (reapPlayers nowMs staleClaimTimeoutMs players recovered) tally := by
  induction players generalizing recovered tally with
  | nil => exact ⟨0, rfl, rfl⟩
  | cons player rest induction =>
      apply (enters_reapPlayer nowMs staleClaimTimeoutMs player).bind
      rintro (_ | _) _ rfl
      · exact induction recovered
      · apply (induction (recovered + 1)).mono
        intro _ _ found
        obtain ⟨more, rfl, rfl⟩ := found
        refine ⟨more + 1, by omega, ?_⟩
        simp only [Bool.toNat_true, Nat.add_comm, Nat.add_left_comm]

theorem enters_reaperTick (staleClaimTimeoutMs : Nat) :
    ledger.Obeys () (fun _ later => later.Balanced)
      (reaperTick staleClaimTimeoutMs) .start := by
  refine enters_access_bind.mpr ⟨trivial, fun nowMs _ => ?_⟩
  refine enters_access_bind.mpr ⟨trivial, fun players _ => ?_⟩
  apply (enters_reapPlayers nowMs staleClaimTimeoutMs players 0).bind
  intro _ _ found
  obtain ⟨more, rfl, rfl⟩ := found
  split
  · refine ⟨trivial, fun _ _ => ⟨rfl, rfl, rfl, rfl, rfl, rfl, ?_⟩⟩
    show 0 + (0 + more) = 0 + more
    omega
  · rename_i none
    refine ⟨rfl, rfl, rfl, rfl, rfl, rfl, ?_⟩
    show 0 = 0 + more
    omega

theorem System.enters_program {config : Config} {system : System}
    {request : Request} {task : Task Response}
    (launched : system.program config request = some task) :
    ledger.Obeys () (fun _ later => later.Balanced) task .start := by
  cases request with
  | enqueue id skillRating =>
      cases launched
      exact (MatchmakerCore.enters_enqueue id skillRating).map
        fun _ _ balanced => balanced
  | cancel id =>
      cases launched
      exact (MatchmakerCore.enters_cancel id).map fun _ _ balanced => balanced
  | attemptMatch workerId =>
      obtain ⟨state, _, rfl⟩ := Option.map_eq_some_iff.mp launched
      exact (enters_attemptMatch _ state).map fun _ _ balanced => balanced
  | reaperTick =>
      rw [System.program] at launched
      split at launched
      · cases launched
        exact (enters_reaperTick _).map fun _ _ balanced => balanced
      · cases launched

end Tasks

section Run

variable {config : Config} {clock : Clock} {discipline : Discipline}
  {system : System}

theorem Run.follows_ledger (run : Run config clock discipline system) :
    system.Follows ledger (fun _ => ()) fun _ _ tally => tally.Balanced :=
  Run.follows run System.enters_program fun _ _ _ => trivial

def Core.books (core : Core) (trace : Trace) : Books where
  metrics := core.metrics
  pushed := (publications trace).length
  resets := (resets trace).length

theorem Run.books_perform {caller : Nat} {operation : Operation}
    {choice : Choice} :
    (system.world.perform choice operation).2.books
        (system.eventOf caller choice operation :: system.trace) =
      (system.world.books system.trace).next operation
        (system.world.perform choice operation).1 := by
  cases operation with
  | exchange player site =>
      simp only [Core.perform, Core.exchange, System.eventOf, Core.books]
      split <;> cases site <;> rfl
  | _ => rfl

theorem Run.gap (run : Run config clock discipline system) (law : Books.Law) :
    (system.world.books system.trace).gap law =
      ∑ caller ∈ Finset.range system.calls.length,
        (tallyOf caller system.trace).gap law := by
  refine Run.invariant run (fun core trace => ∀ bound,
    (∀ event ∈ trace, event.caller < bound) → (core.books trace).gap law =
      ∑ caller ∈ Finset.range bound, (tallyOf caller trace).gap law) ?_
    (fun _ _ holds => holds) ?_ _ (Run.sound run).traced
  · intro bound _
    have balanced : (Books.new).gap law = 0 := by cases law <;> rfl
    exact balanced.trans (Finset.sum_eq_zero fun _ _ => balanced).symm
  · intro system mover request operation choice run performing holds bound
      inside
    rw [Run.books_perform, Books.gap_next,
      holds bound fun event earlier => inside event (.tail _ earlier)]
    exact (@Contract.sum_ghost_cons _ ledger Int _
      (fun tally => tally.gap law) _ _ _ _ (inside _ (.head _))
      (Books.gap_next ..)).symm

end Run

end Matchmaker
