import Matchmaker.Concurrent.Tracking
import Matchmaker.Safety.Registration
import Matchmaker.Sequential.Queue
import Matchmaker.Service.Readings

namespace Matchmaker

open Concurrent

/-! How far the gauge that `GET /health` shows can be from the number of players
in the pool. -/

/-- By how much an access makes the pool larger than the gauge says. -/
def Operation.surplus : (operation : Operation) → operation.Result → Int
  | .primaryInsert _, _ => 1
  | .primaryRemove _, some _ => -1
  | .addQueueSize amount, _ => -amount
  | _, _ => 0

/-- A removal finds somebody. -/
def Operation.Finds : (operation : Operation) → operation.Result → Prop
  | .primaryRemove _, found => found.isSome = true
  | _, _ => True

/-- A call has taken at most so many players out of the pool, or put so many
into it, that the gauge does not show yet. -/
@[reducible] def gauging : Contract memory where
  Role := Nat × Nat
  Ghost := Int
  initial := 0
  next := fun surplus operation result => surplus + operation.surplus result
  Allowed := fun reach surplus _ => -reach.1 ≤ surplus ∧ surplus ≤ reach.2
  Credible := Operation.Finds

abbrev surplusOf (caller : Nat) (trace : Trace) : Int :=
  gauging.ghost caller trace

/-- How many players a call takes out of the pool, and how many it puts in. -/
def Request.reach : Request → Nat × Nat
  | .enqueue .. => (0, 1)
  | .cancel _ => (1, 0)
  | .attemptMatch _ => (matchSize, 0)
  | .reaperTick => 0

theorem gauges_access_bind {reach : Nat × Nat} {post : α → Int → Prop}
    {operation : Operation} {rest : operation.Result → Task α}
    {surplus : Int} :
    gauging.Obeys reach post (access operation >>= rest) surplus ↔
      (-reach.1 ≤ surplus ∧ surplus ≤ reach.2) ∧
        ∀ result, operation.Finds result →
          gauging.Obeys reach post (rest result)
            (surplus + operation.surplus result) :=
  Iff.rfl

/-- Operations on the pool or on the gauge. -/
def Operation.Gauges : Operation → Bool
  | .primaryInsert _ | .primaryRemove _ | .addQueueSize _ => true
  | _ => false

abbrev Ungauging (task : Task α) (post : α → Prop) : Prop :=
  task.Yields (fun operation : Operation => operation.Gauges = false) post

section Tasks

variable {reach : Nat × Nat} {surplus : Int}

theorem Ungauging.gauges {task : Task α} {post : α → Prop}
    (ungauging : Ungauging task post)
    (within : -reach.1 ≤ surplus ∧ surplus ≤ reach.2) :
    gauging.Obeys reach (fun value later => post value ∧ later = surplus)
      task surplus := by
  apply Contract.Obeys.of_still (fun _ _ => within) ?_ ungauging
  intro operation result quiet
  cases operation <;> first
    | exact Int.add_zero surplus
    | cases quiet

theorem Reads.ungauging {task : Task α} {post : α → Prop}
    (reads : Reads task post) : Ungauging task post := by
  apply reads.permit
  intro operation reads
  cases operation <;> first
    | rfl
    | cases reads

theorem ungauging_access {operation : Operation}
    (ungauging : operation.Gauges = false) :
    Ungauging (access operation) fun _ => True :=
  Program.yields_request ungauging

/-- An access of a program that has nothing to do with the pool. -/
theorem gauges_other_bind {post : α → Int → Prop} {operation : Operation}
    {rest : operation.Result → Task α} (ungauging : operation.Gauges = false)
    (within : -reach.1 ≤ surplus ∧ surplus ≤ reach.2)
    (onward : ∀ result, gauging.Obeys reach post (rest result) surplus) :
    gauging.Obeys reach post (access operation >>= rest) surplus := by
  apply ((ungauging_access ungauging).gauges within).bind
  intro result _ unmoved
  obtain ⟨_, rfl⟩ := unmoved
  exact onward result

theorem gauges_shift_bind {post : α → Int → Prop} {operation : Operation}
    {rest : operation.Result → Task α} (amount : Int)
    (shift : ∀ result, operation.surplus result = amount)
    (within : -reach.1 ≤ surplus ∧ surplus ≤ reach.2)
    (onward : ∀ result, gauging.Obeys reach post (rest result)
      (surplus + amount)) :
    gauging.Obeys reach post (access operation >>= rest) surplus := by
  refine gauges_access_bind.mpr ⟨within, fun result _ => ?_⟩
  rw [shift result]
  exact onward result

theorem PlayerPool.gauges_remove {id : Uuid}
    (within : -reach.1 < surplus ∧ surplus ≤ reach.2) :
    gauging.Obeys reach (fun _ later => later = surplus - 1)
      (PlayerPool.remove id) surplus := by
  refine gauges_access_bind.mpr ⟨by omega, fun found finds => ?_⟩
  cases found with
  | none => cases finds
  | some player =>
      refine gauges_access_bind.mpr ⟨?_, fun _ _ => ?_⟩
      · show -(reach.1 : Int) ≤ surplus + -1 ∧ surplus + -1 ≤ reach.2
        omega
      · show surplus + -1 + 0 = surplus - 1
        omega

/-- Of the claimed players these are still to be removed. -/
structure Left (claimed rest : List Player) (surplus : Int) : Prop where
  fewer : rest.length ≤ claimed.length
  surplus : surplus = rest.length - claimed.length

theorem Left.all {claimed : List Player} {surplus : Int}
    (left : Left claimed [] surplus) : surplus = -claimed.length := by
  rw [left.surplus, List.length_nil]
  omega

theorem Left.next {claimed rest : List Player} {player : Player}
    {surplus : Int} (left : Left claimed (player :: rest) surplus) :
    Left claimed rest (surplus - 1) := by
  obtain ⟨fewer, taken⟩ := left
  rw [List.length_cons] at fewer taken
  exact ⟨by omega, by omega⟩

theorem Left.within {claimed rest : List Player} {player : Player}
    {surplus : Int} (left : Left claimed (player :: rest) surplus)
    (short : claimed.length ≤ reach.1) :
    -reach.1 < surplus ∧ surplus ≤ reach.2 := by
  obtain ⟨fewer, taken⟩ := left
  rw [List.length_cons] at fewer taken
  omega

theorem gauges_removing (claimed : List Player)
    (short : claimed.length ≤ reach.1) :
    gauging.Obeys reach (fun _ later => later = -(claimed.length : Int))
      (forM claimed fun player => do
        let _ ← PlayerPool.remove player.id) (0 : Int) := by
  apply (@Contract.Obeys.forM _ gauging reach _ claimed _ (Left claimed) _
    ⟨Nat.le_refl _, by omega⟩ ?_).mono fun _ _ left => left.all
  intro player rest surplus left
  apply (PlayerPool.gauges_remove (left.within short)).bind
  intro _ _ removed
  rw [removed]
  exact left.next

theorem gauges_completeMatch (ctx : WorkerContext) (state : WorkerState)
    {claimed : List Player} (ten : claimed.length = matchSize) :
    gauging.Obeys (matchSize, 0) (fun _ later => later = 0)
      (completeMatch ctx state claimed) (0 : Int) := by
  have marking : Ungauging (forM claimed Player.markMatched) _ :=
    Program.Yields.forM (fun player =>
      player.yields_markMatched rfl (fun _ => rfl) rfl) claimed
  apply (marking.gauges (by decide)).bind
  intro _ _ found
  obtain ⟨_, rfl⟩ := found
  apply ((reads_buildMatch claimed _).ungauging.gauges (by decide)).bind
  intro outcome _ found
  obtain ⟨_, rfl⟩ := found
  apply (gauges_removing claimed (Nat.le_of_eq ten)).bind
  intro _ _ taken
  subst taken
  rw [ten]
  iterate 3
    refine gauges_other_bind rfl (by decide) fun _ => ?_
  refine gauges_shift_bind matchSize (fun _ => rfl) (by decide) fun _ => ?_
  iterate 5
    refine gauges_other_bind rfl (by decide) fun _ => ?_
  rfl

theorem gauges_attemptMatch (ctx : WorkerContext) (state : WorkerState) :
    gauging.Obeys (matchSize, 0) (fun _ later => later = 0)
      (attemptMatch ctx state) (0 : Int) := by
  apply ((reads_selectSeed ctx state).ungauging.gauges (by decide)).bind
  intro found _ unmoved
  obtain ⟨_, rfl⟩ := unmoved
  cases found with
  | none => rfl
  | some seed =>
      apply ((reads_scanBounds _ _ _).ungauging.gauges (by decide)).bind
      intro bounds _ unmoved
      obtain ⟨_, rfl⟩ := unmoved
      apply ((reads_relaxationStage _ _).ungauging.gauges (by decide)).bind
      intro stage _ unmoved
      obtain ⟨_, rfl⟩ := unmoved
      refine gauges_other_bind rfl (by decide) fun _ => ?_
      apply ((PlayerPool.reads_rangeScan _ _).ungauging.gauges
        (by decide)).bind
      intro candidates _ unmoved
      obtain ⟨_, rfl⟩ := unmoved
      dsimp only
      split
      · exact gauges_other_bind rfl (by decide) fun _ => rfl
      · refine gauges_other_bind rfl (by decide) fun nowMs => ?_
        have claiming : Ungauging
            (claimCandidates ctx.workerId nowMs candidates []) _ :=
          yields_claimCandidates
            (fun player => player.yields_tryClaim rfl rfl rfl)
            candidates (Nat.zero_le _)
        apply (claiming.gauges (by decide)).bind
        intro claimed _ found
        obtain ⟨⟨bound, _⟩, rfl⟩ := found
        split
        · have releasing : Ungauging (forM claimed Player.releaseClaim) _ :=
            Program.Yields.forM (fun player =>
              player.yields_releaseClaim rfl rfl rfl) claimed
          apply (releasing.gauges (by decide)).bind
          intro _ _ unmoved
          obtain ⟨_, rfl⟩ := unmoved
          exact gauges_other_bind rfl (by decide) fun _ => rfl
        · exact gauges_completeMatch ctx state (by omega)

theorem MatchmakerCore.gauges_enqueue (id : Uuid) (skillRating : Nat) :
    gauging.Obeys (0, 1) (fun _ later => later = 0)
      (MatchmakerCore.enqueue id skillRating) (0 : Int) := by
  unfold MatchmakerCore.enqueue
  split
  · rfl
  · refine gauges_other_bind rfl (by decide) fun present => ?_
    cases present with
    | true => rfl
    | false =>
        iterate 2
          refine gauges_other_bind rfl (by decide) fun _ => ?_
        refine gauges_shift_bind 1 (fun _ => rfl) (by decide) fun _ => ?_
        iterate 2
          refine gauges_other_bind rfl (by decide) fun _ => ?_
        refine gauges_shift_bind (-1) (fun _ => rfl) (by decide) fun _ => ?_
        exact gauges_other_bind rfl (by decide) fun _ => rfl

theorem MatchmakerCore.gauges_cancel (id : Uuid) :
    gauging.Obeys (1, 0) (fun _ later => later = 0)
      (MatchmakerCore.cancel id) (0 : Int) := by
  refine gauges_other_bind rfl (by decide) fun found => ?_
  cases found with
  | none => rfl
  | some player =>
      refine gauges_other_bind rfl (by decide) fun evicted => ?_
      cases evicted with
      | false => rfl
      | true =>
          apply (PlayerPool.gauges_remove (by decide)).bind
          intro _ _ taken
          subst taken
          refine gauges_shift_bind 1 (fun _ => rfl) (by decide) fun _ => ?_
          exact gauges_other_bind rfl (by decide) fun _ => rfl

theorem gauges_reapPlayer (nowMs staleClaimTimeoutMs : Nat)
    (player : Player) :
    gauging.Obeys 0 (fun _ later => later = 0)
      (reapPlayer nowMs staleClaimTimeoutMs player) (0 : Int) := by
  refine gauges_other_bind rfl (by decide) fun state => ?_
  split
  · rfl
  · refine gauges_other_bind rfl (by decide) fun claimTs => ?_
    dsimp only
    split
    · rfl
    · split
      · refine gauges_other_bind rfl (by decide) fun _ => ?_
        refine gauges_other_bind rfl (by decide) fun success => ?_
        cases success with
        | false => rfl
        | true =>
            refine gauges_other_bind rfl (by decide) fun _ => ?_
            exact gauges_other_bind rfl (by decide) fun _ => rfl
      · rfl

theorem gauges_reapPlayers (nowMs staleClaimTimeoutMs : Nat)
    (players : List Player) (recovered : Nat) :
    gauging.Obeys 0 (fun _ later => later = 0)
      (reapPlayers nowMs staleClaimTimeoutMs players recovered) (0 : Int) := by
  induction players generalizing recovered with
  | nil => rfl
  | cons player rest induction =>
      apply (gauges_reapPlayer nowMs staleClaimTimeoutMs player).bind
      intro reset _ unmoved
      subst unmoved
      cases reset with
      | true => exact induction (recovered + 1)
      | false => exact induction recovered

theorem gauges_reaperTick (staleClaimTimeoutMs : Nat) :
    gauging.Obeys 0 (fun _ later => later = 0)
      (reaperTick staleClaimTimeoutMs) (0 : Int) := by
  refine gauges_other_bind rfl (by decide) fun nowMs => ?_
  refine gauges_other_bind rfl (by decide) fun players => ?_
  apply (gauges_reapPlayers nowMs staleClaimTimeoutMs players 0).bind
  intro recovered _ unmoved
  subst unmoved
  split
  · exact gauges_other_bind rfl (by decide) fun _ => rfl
  · rfl

theorem System.gauges_program {config : Config} {system : System}
    {request : Request} {task : Task Response}
    (launched : system.program config request = some task) :
    gauging.Obeys request.reach (fun _ later => later = 0) task (0 : Int) := by
  cases request with
  | enqueue id skillRating =>
      cases launched
      exact (MatchmakerCore.gauges_enqueue id skillRating).map
        fun _ _ even => even
  | cancel id =>
      cases launched
      exact (MatchmakerCore.gauges_cancel id).map fun _ _ even => even
  | attemptMatch workerId =>
      obtain ⟨state, _, rfl⟩ := Option.map_eq_some_iff.mp launched
      exact (gauges_attemptMatch _ state).map fun _ _ even => even
  | reaperTick =>
      rw [System.program] at launched
      split at launched
      · cases launched
        exact (gauges_reaperTick _).map fun _ _ even => even
      · cases launched

end Tasks

/-- By how much the pool is larger than the gauge says. -/
def Core.surplus (core : Core) : Int :=
  core.primary.entries.length - core.metrics.currentQueueSize

theorem length_erase_of_found {primary : Primary} {id : Uuid}
    {player : Player} (found : primary.lookup id = some player) :
    (primary.erase id).entries.length + 1 = primary.entries.length := by
  have member : id ∈ primary.keys :=
    AList.lookup_isSome.mp (Option.isSome_iff_exists.mpr ⟨player, found⟩)
  have shorter := List.length_erase_add_one member
  rw [← AList.keys_erase] at shorter
  simpa [AList.keys, List.keys] using shorter

theorem erase_of_absent {primary : Primary} {id : Uuid}
    (absent : primary.lookup id = none) : primary.erase id = primary :=
  AList.ext (List.kerase_of_notMem_keys (AList.lookup_eq_none.mp absent))

theorem Core.surplus_perform {core : Core} {choice : Choice}
    {operation : Operation} (fresh : ∀ player,
      operation = .primaryInsert player →
        core.primary.lookup player.id = none) :
    (core.perform choice operation).2.surplus =
      core.surplus + operation.surplus (core.perform choice operation).1 := by
  cases operation with
  | exchange player site =>
      simp only [perform, exchange]
      split <;> exact (Int.add_zero _).symm
  | primaryInsert player =>
      have longer := length_insert_of_absent (fresh player rfl)
      simp only [perform, surplus, Operation.surplus]
      omega
  | primaryRemove id =>
      simp only [perform, surplus]
      cases found : core.primary.lookup id with
      | none =>
          rw [erase_of_absent found]
          exact (Int.add_zero _).symm
      | some player =>
          have shorter := length_erase_of_found found
          simp only [Operation.surplus]
          omega
  | fetchAdd counter amount =>
      cases counter <;> exact (Int.add_zero _).symm
  | addQueueSize amount =>
      simp only [perform, surplus, Operation.surplus]
      omega
  | _ => exact (Int.add_zero _).symm

/-- How many players a call may have taken out of the pool, or put into it,
that the gauge does not show yet. -/
def reachOf (call : SystemCall) : Nat × Nat :=
  if call.program.returned?.isSome then 0 else call.request.reach

def System.inFlight (system : System) : Nat × Nat :=
  (system.calls.map reachOf).sum

section Run

variable {config : Config} {clock : Clock} {system : System}

theorem Run.follows_gauging
    (run : Run config clock (.both .keptClaims .absentInserts) system) :
    system.Follows gauging Request.reach fun _ _ later => later = 0 := by
  apply Run.follows_performing run System.gauges_program
  intro system caller request operation choice run performing
  cases operation with
  | primaryRemove id =>
      obtain ⟨player, rest, _, _, found⟩ :=
        (Run.removals run).finds run performing
      exact Option.isSome_iff_exists.mpr ⟨player, found⟩
  | _ => exact trivial

theorem Run.surplus
    (run : Run config clock (.both .keptClaims .absentInserts) system) :
    system.world.surplus =
      ∑ caller ∈ Finset.range system.calls.length,
        surplusOf caller system.trace := by
  refine Run.invariant run (fun core trace => ∀ bound,
    (∀ event ∈ trace, event.caller < bound) → core.surplus =
      ∑ caller ∈ Finset.range bound, surplusOf caller trace) ?_
    (fun _ _ holds => holds) ?_ _ (Run.sound run).traced
  · intro bound _
    exact (Finset.sum_eq_zero fun _ _ => rfl).symm
  · intro system mover request operation choice run performing holds bound
      inside
    rw [Core.surplus_perform,
      holds bound fun event earlier => inside event (.tail _ earlier)]
    · exact (@Contract.sum_ghost_cons _ gauging Int _ id _ _ _ _
        (inside _ (.head _)) rfl).symm
    · intro player inserts
      subst inserts
      simpa [Discipline.absentInserts] using performing.right.permitted

theorem Run.surplus_call
    (run : Run config clock (.both .keptClaims .absentInserts) system)
    {caller : Nat} {call : SystemCall}
    (found : system.calls[caller]? = some call) :
    -((reachOf call).1 : Int) ≤ surplusOf caller system.trace ∧
      surplusOf caller system.trace ≤ (reachOf call).2 := by
  obtain ⟨request, program⟩ := call
  have obeys := Run.follows_gauging run caller _ found
  cases program with
  | pure response =>
      have even : surplusOf caller system.trace = 0 := obeys
      rw [even]
      exact ⟨Int.le_refl _, Int.le_refl _⟩
  | perform operation next => exact obeys.1

theorem System.inFlight_eq (system : System) :
    system.inFlight = ∑ caller ∈ Finset.range system.calls.length,
      (system.calls[caller]?.map reachOf).getD 0 :=
  sum_map_eq_sum_range reachOf system.calls

/-- The pool and the gauge differ by no more than the calls in progress have
still to say. -/
theorem Run.gauged
    (run : Run config clock (.both .keptClaims .absentInserts) system) :
    -(system.inFlight.1 : Int) ≤ system.world.surplus ∧
      system.world.surplus ≤ system.inFlight.2 := by
  have each : ∀ caller ∈ Finset.range system.calls.length,
      -(((system.calls[caller]?.map reachOf).getD 0).1 : Int) ≤
          surplusOf caller system.trace ∧
        surplusOf caller system.trace ≤
          ((system.calls[caller]?.map reachOf).getD 0).2 := by
    intro caller member
    have found := List.getElem?_eq_getElem (Finset.mem_range.mp member)
    rw [found]
    exact Run.surplus_call run found
  rw [Run.surplus run, System.inFlight_eq, Prod.fst_sum, Prod.snd_sum]
  push_cast
  rw [← Finset.sum_neg_distrib]
  exact ⟨Finset.sum_le_sum fun caller member => (each caller member).1,
    Finset.sum_le_sum fun caller member => (each caller member).2⟩

theorem System.inFlight_of_quiet (quiet : system.Quiet) :
    system.inFlight = 0 := by
  apply List.sum_eq_zero
  intro reach member
  obtain ⟨call, among, rfl⟩ := List.mem_map.mp member
  exact if_pos (quiet call among)

/-- When no call is in progress, everybody in the pool is waiting. -/
theorem Run.pool_waiting_of_quiet
    (run : Run config clock (.both .keptClaims .absentInserts) system)
    (quiet : system.Quiet) {player : Player}
    (member : player ∈ system.world.primary.players) :
    (system.world.cells player).state = .waiting := by
  obtain ⟨id, found⟩ := Primary.mem_players.mp member
  obtain ⟨_, _, kept⟩ := (Run.lookup_iff (Run.right run)).mp found
  by_contra left
  rcases Run.taken run left with claimed | settled
  · exact Run.unclaimed run quiet player claimed
  · obtain ⟨⟨caller, other, site⟩, transfer, rfl, final⟩ := settled
    have settles : Settles caller other system.trace := by
      rcases final with rfl | rfl
      · exact .inl transfer
      · exact .inr transfer
    rcases Run.owed run settles with pending | removed
    · rw [pendingOf, (Run.rested_of_quiet run quiet caller).removal] at pending
      exact List.not_mem_nil pending
    · exact kept (List.mem_map.mpr ⟨_, removed, rfl⟩)

end Run

/-- What `GET /health` shows is close to the size of the pool at one moment: it
leaves out at most one player for every enqueue in progress, and still counts
at most one for every cancel and ten for every attempt in progress. With no call
in progress it is the number of players in the pool, who are all waiting. -/
theorem health_close {config : Config} {clock : Clock} {watched : ReadSystem}
    (run : ReadRun config clock (.both .keptClaims .absentInserts) watched)
    {watch : Nat} {opened : System} {response : HealthResponse}
    (answered : watched.watches[watch]? =
      some ⟨.health, opened, .pure (.health response)⟩) :
    ∃ seen, Later config (.both .keptClaims .absentInserts) opened seen ∧
      Later config (.both .keptClaims .absentInserts) seen watched.state ∧
      seen.world.primary.entries.length ≤
        response.playersWaiting + seen.inFlight.2 ∧
      response.playersWaiting ≤
        seen.world.primary.entries.length + seen.inFlight.1 ∧
      (seen.Quiet →
        response.playersWaiting = seen.world.primary.entries.length ∧
        ∀ player ∈ seen.world.primary.players,
          (seen.world.cells player).state = .waiting) := by
  obtain ⟨reached, closed, _, after, _, ⟨seen, since, onwards, shown⟩, _⟩ :=
    ReadLater.reported .start run (Nat.zero_le _) answered
  have before := Later.run reached since
  obtain ⟨low, high⟩ := Run.gauged before
  rw [Core.surplus, ← shown] at low high
  refine ⟨seen, since, onwards.trans after, by omega, by omega, ?_⟩
  intro quiet
  refine ⟨?_, fun player => Run.pool_waiting_of_quiet before quiet⟩
  rw [System.inFlight_of_quiet quiet] at low high
  simp only [Prod.fst_zero, Prod.snd_zero] at low high
  omega

/-- The size of the pool that a request for the health was told. -/
def ReadSystem.waiting? (watched : ReadSystem) (watch : Nat) :
    Option HealthResponse :=
  match watched.answer? watch with
  | some (.health, .health response) => some response
  | _ => none

theorem ReadSystem.exists_of_waiting {watched : ReadSystem} {watch : Nat}
    {response : HealthResponse}
    (waiting : watched.waiting? watch = some response) :
    ∃ opened, watched.watches[watch]? =
      some ⟨.health, opened, .pure (.health response)⟩ := by
  unfold waiting? at waiting
  split at waiting
  · rename_i answered
    cases waiting
    exact exists_of_answer answered
  · cases waiting

set_option maxRecDepth 100000 in
/-- The players of a match are out of the pool but not yet off the gauge. -/
theorem health_close_midway :
    ∃ watched opened seen, ∃ response : HealthResponse,
      ReadRun .default ⟨0, 1000⟩ (.both .keptClaims .absentInserts) watched ∧
      Later .default (.both .keptClaims .absentInserts) opened seen ∧
      Later .default (.both .keptClaims .absentInserts) seen watched.state ∧
      seen.world.primary.entries.length ≤
        response.playersWaiting + seen.inFlight.2 ∧
      response.playersWaiting ≤
        seen.world.primary.entries.length + seen.inFlight.1 ∧
      response.playersWaiting = 11 ∧
      watched.state.world.primary.entries.length = 1 := by
  obtain ⟨watched, ran, check⟩ : ∃ watched,
      ReadSystem.play .default ⟨0, 1000⟩ (.both .keptClaims .absentInserts)
        ⟨System.new ⟨0, 1000⟩, []⟩ ((arrivals 11 1500 ++
          .start (.attemptMatch 1) :: turns 11 140).map .move ++
          .visit .health :: looks 0 2) = some watched ∧
        ((watched.waiting? 0).any fun response =>
          response.playersWaiting = 11 ∧
            watched.state.world.primary.entries.length = 1) = true := by
    apply (Option.any_eq_true _ _).mp
    decide +kernel
  obtain ⟨response, waiting, eleven⟩ := (Option.any_eq_true _ _).mp check
  obtain ⟨opened, found⟩ := ReadSystem.exists_of_waiting waiting
  have run := ReadLater.played ran
  obtain ⟨seen, since, onwards, low, high, _⟩ := health_close run found
  exact ⟨watched, opened, seen, response, run, since, onwards, low, high,
    of_decide_eq_true eleven⟩

end Matchmaker
