import Matchmaker.Protocol.Ratings
import Matchmaker.Protocol.Stamps

namespace Matchmaker

open Concurrent

/-! Several live workers at once. While the Reaper resets nothing, a player is
held by one attempt at most, and it ends up matched, cancelled or in the pool. -/

def heldAfter (caller : Nat) (player : Player) : List Transfer → Bool
  | [] => false
  | transfer :: earlier =>
      if transfer.caller = caller ∧ transfer.player = player then
        match transfer.site with
        | .tryClaim .. => true
        | .releaseClaim => false
        | _ => heldAfter caller player earlier
      else heldAfter caller player earlier

/-- The call has claimed the player and not released it since. -/
def Holds (caller : Nat) (player : Player) (trace : Trace) : Prop :=
  heldAfter caller player (transfers trace) = true

/-- A cancel that returned `Ok` has evicted the player. -/
def Cancelled (system : System) (player : Player) : Prop :=
  ∃ caller : Nat, system.calls[caller]? =
      some ⟨.cancel player.id, .pure (.cancel (.ok ()))⟩ ∧
    ⟨caller, player, .tryEvict⟩ ∈ transfers system.trace

/-- The player waits in both stores and its claim fields are zero. -/
structure Queued (core : Core) (player : Player) : Prop where
  state : (core.cells player).state = .waiting
  claimedBy : (core.cells player).claimedBy = 0
  claimTimestamp : (core.cells player).claimTimestamp = 0
  primary : core.primary.lookup player.id = some player
  index : core.index[player.ratingKey]? = some player

structure NoDoubleBooking (system : System) : Prop where
  apart : ∀ first second player, Holds first player system.trace →
    Holds second player system.trace → first = second
  busy : ∀ caller player, Holds caller player system.trace →
    (system.world.cells player).state = .claimed ∨
      (system.world.cells player).state = .matched
  once : (published system.trace).Nodup
  teams : ∀ publication ∈ publications system.trace,
    publication.players.Nodup ∧ publication.teamA.length = teamSize ∧
      publication.teamB.length = teamSize ∧
      publication.record.teamA.players.map (·.id) =
        publication.teamA.map (·.id) ∧
      publication.record.teamB.players.map (·.id) =
        publication.teamB.map (·.id)
  cancels : ∀ (caller : Nat) (id : Uuid), system.calls[caller]? =
      some ⟨.cancel id, .pure (.cancel (.ok ()))⟩ →
    ∃ player, player.id = id ∧ Cancelled system player
  cancelled : ∀ player, Cancelled system player →
    player ∉ published system.trace ∧
      ∀ caller, ¬ Holds caller player system.trace
  rest : system.Quiet → ∀ player ∈ stored system.trace,
    player ∉ published system.trace → ¬ Cancelled system player →
    Queued system.world player

section Held

variable {system : System} {caller other : Nat} {player : Player}
  {operation : Operation} {site : Exchange}

theorem holds_undisturbed
    (undisturbed : Undisturbed system player operation) (choice : Choice) :
    Holds other player
        (system.eventOf caller choice operation :: system.trace) ↔
      Holds other player system.trace := by
  unfold Holds
  cases operation with
  | exchange disturbed site =>
      cases success : (system.world.exchange disturbed site).1 with
      | false => simp [System.eventOf, Core.perform, success]
      | true =>
          have different := undisturbed.different success
          simp [System.eventOf, Core.perform, success, heldAfter, different]
  | _ => rw [transfers_cons_of_none rfl]

theorem holds_disturbed
    (success : (system.world.exchange player site).1 = true)
    (choice : Choice) :
    Holds other player (system.eventOf caller choice
        (.exchange player site) :: system.trace) ↔
      if caller = other then
        match site with
        | .tryClaim .. => True
        | .releaseClaim => False
        | _ => Holds other player system.trace
      else Holds other player system.trace := by
  unfold Holds
  by_cases same : caller = other <;> cases site <;>
    simp [System.eventOf, Core.perform, success, heldAfter, same]

end Held

/-- The call has the player: it has claimed it, or it has matched it. -/
def Phase.Has (phase : Phase) : Bool :=
  phase.Active || phase = .marked

theorem Moves.has {player : Player} {operation : Operation}
    {result : operation.Result} {before after : Phase}
    (moved : Moves player operation result before after)
    (has : before.Has)
    (undisturbed : ∀ site, operation = .exchange player site →
      ¬ before.Active) : after.Has := by
  cases moved with
  | stay => exact has
  | release => exact absurd rfl (undisturbed _ rfl)
  | miss => exact absurd rfl (undisturbed _ rfl)
  | _ => first
    | rfl
    | cases has

section Run

variable {config : Config} {clock : Clock} {system : System}

theorem Run.own_exchange (run : Run config clock .noResets system)
    {caller : Nat} {request : Request} {player : Player} {site : Exchange}
    (performing : Performing config .noResets system caller request
      (.exchange player site))
    (active : (phaseOf caller player system.trace).Active) :
    (system.world.exchange player site).1 = true := by
  obtain ⟨claim, inForce, _⟩ := Run.owns_of_noResets run active
  refine exchange_succeeds_iff.mpr
    (((Run.claimed_iff run).mpr ⟨claim, inForce⟩).trans ?_)
  have allowed : site.Allowed player (request.role config)
      (progressOf caller system.trace) := performing.allowed
  cases site with
  | releaseClaim | markMatched | reaperReset => rfl
  | tryClaim workerId nowMs =>
      rw [phaseOf, allowed.2.2.1] at active
      cases active
  | tryEvict =>
      rw [phaseOf, allowed.2.2] at active
      cases active

theorem Run.has_of_holds (run : Run config clock .noResets system)
    {caller : Nat} {player : Player}
    (holding : Holds caller player system.trace) :
    (phaseOf caller player system.trace).Has := by
  refine Run.invariant run (fun _ trace => Holds caller player trace →
    (phaseOf caller player trace).Has) nofun (fun _ _ holds => holds) ?_
    holding
  intro system mover request operation choice run performing has holding
  by_cases same : mover = caller
  · subst same
    rcases disturbed_or_undisturbed system player operation with
      ⟨site, rfl, success⟩ | undisturbed
    · rw [holds_disturbed success, if_pos rfl] at holding
      have moved := performing.moves player choice
      rw [show (system.world.perform choice (.exchange player site)).1 = true
        from success] at moved
      cases site with
      | tryClaim workerId nowMs =>
          rw [performing.claiming success choice]
          rfl
      | releaseClaim => cases holding
      | markMatched =>
          rw [moved.settling rfl]
          rfl
      | tryEvict =>
          have idle : phaseOf mover player system.trace = .idle :=
            performing.allowed.2.2
          have before := has holding
          rw [idle] at before
          cases before
      | reaperReset nowMs =>
          have current := exchange_succeeds_iff.mp success
          have permitted := performing.permitted
          simp [Discipline.noResets, current, Exchange.current] at permitted
    · rw [holds_undisturbed undisturbed] at holding
      apply (performing.moves player choice).has (has holding)
      rintro site rfl active
      have success := Run.own_exchange run performing active
      exact Bool.false_ne_true ((undisturbed site rfl).symm.trans success)
  · rw [phaseOf_other same]
    apply has
    rcases disturbed_or_undisturbed system player operation with
      ⟨site, rfl, success⟩ | undisturbed
    · rwa [holds_disturbed success, if_neg same] at holding
    · rwa [holds_undisturbed undisturbed] at holding

theorem Run.holder (run : Run config clock .noResets system)
    {caller : Nat} {player : Player}
    (holding : Holds caller player system.trace) :
    ∃ transfer, lastTransfer player system.trace = some transfer ∧
      transfer.caller = caller ∧
      (transfer.site.new = .claimed ∨ transfer.site.new = .matched) := by
  rcases Bool.or_eq_true_iff.mp (Run.has_of_holds run holding) with
    active | marked
  · obtain ⟨claim, inForce, rfl⟩ := Run.owns_of_noResets run active
    exact ⟨_, claimOf_eq_some_iff.mp inForce, rfl, .inl rfl⟩
  · have member : ⟨caller, player, .markMatched⟩ ∈ transfers system.trace :=
      (Run.settled_iff run rfl).mp (of_decide_eq_true marked)
    exact ⟨_, Run.final run member (.inl rfl), rfl, .inr rfl⟩

theorem Run.held_busy (run : Run config clock .noResets system)
    {caller : Nat} {player : Player}
    (holding : Holds caller player system.trace) :
    (system.world.cells player).state = .claimed ∨
      (system.world.cells player).state = .matched := by
  obtain ⟨transfer, last, _, busy⟩ := Run.holder run holding
  rw [Run.state run, last]
  exact busy

theorem Run.not_held (run : Run config clock .noResets system)
    {caller other : Nat} {player : Player}
    (evicted : ⟨caller, player, .tryEvict⟩ ∈ transfers system.trace) :
    ¬ Holds other player system.trace := by
  intro holding
  have last := Run.final run evicted (.inr rfl)
  have state := Run.state run player
  rw [last] at state
  rcases Run.held_busy run holding with busy | busy <;>
    rw [busy] at state <;> cases state

/-- Whoever has evicted a player is a cancel, and once it has returned it has
returned `Ok`. -/
theorem Run.cancelled_of_evicted {discipline : Discipline}
    (run : Run config clock discipline system) (quiet : system.Quiet)
    {caller : Nat} {player : Player}
    (evicted : ⟨caller, player, .tryEvict⟩ ∈ transfers system.trace) :
    Cancelled system player := by
  have phase : phaseOf caller player system.trace = .evicted :=
    (Run.settled_iff run rfl).mpr evicted
  obtain ⟨⟨request, program⟩, found, rfl⟩ := @Run.requested _ _ _ _ run
    (fun progress => progress.phase player = .evicted)
    (· = .cancel player.id) nofun
    (by
      intro system caller request operation choice performing
        (reached : phaseOf caller player _ = .evicted)
      have moved := performing.moves player choice
      rw [reached] at moved
      generalize before : phaseOf caller player system.trace = phase at moved
      generalize (system.world.perform choice operation).1 = result at moved
      cases moved with
      | evict =>
          have role := performing.allowed.1
          cases request <;> cases role
          exact .inr rfl
      | stay => exact .inl before)
    caller phase
  refine ⟨caller, ?_, evicted⟩
  have returned := quiet _ (List.mem_of_getElem? found)
  cases program with
  | perform operation next => cases returned
  | pure response =>
      have ended := (Run.sound run).follows.returned found
      cases response with
      | cancel outcome =>
          cases outcome with
          | ok _ => exact found
          | error error =>
              have idle := CancelEnded.outcome ended player
              rw [phaseOf, idle] at phase
              cases phase
      | _ => cases ended

theorem Run.waiting_of_quiet {discipline : Discipline}
    (run : Run config clock discipline system) (quiet : system.Quiet)
    {player : Player} (unpublished : player ∉ published system.trace)
    (kept : ¬ Cancelled system player) :
    (system.world.cells player).state = .waiting := by
  cases state : (system.world.cells player).state with
  | waiting => rfl
  | claimed =>
      obtain ⟨claim, inForce⟩ := (Run.claimed_iff run).mp state
      have active := (Run.carries run inForce).active
      rw [phaseOf, (Run.rested_of_quiet run quiet _).inactive] at active
      cases active
  | matched =>
      obtain ⟨⟨caller, _, site⟩, member, rfl, reached⟩ :=
        Run.transfer_of_state run state (by simp)
      cases site <;> cases reached
      have marked := (Run.rested_of_quiet run quiet caller).published _
        ((Run.settled_iff run rfl).mpr member)
      obtain ⟨publication, among, _, inTeams⟩ := Run.publication_of run marked
      exact absurd (List.mem_flatMap.mpr ⟨publication, among, inTeams⟩)
        unpublished
  | evicted =>
      obtain ⟨⟨caller, _, site⟩, member, rfl, reached⟩ :=
        Run.transfer_of_state run state (by simp)
      cases site <;> cases reached
      exact absurd (Run.cancelled_of_evicted run quiet member) kept

theorem Run.touches_own (run : Run config clock .distinctIds system)
    {caller : Nat} {request : Request} {operation : Operation}
    (performing : Performing config .distinctIds system caller request
      operation) :
    Discipline.ownEntries.performs system caller operation = true := by
  have own : ∀ player, player ∈ stored system.trace →
      (system.world.index[player.ratingKey]?.all fun other =>
        other = player || system.world.primary.lookup other.id ≠
          some other) = true := by
    intro player member
    cases found : system.world.index[player.ratingKey]? with
    | none => rfl
    | some other =>
        have keys := (Run.sound run).keyed.index found
        have same := Run.player_unique run (Run.stored_of_indexed run
          (Run.indexed_of_index run found)) member (congrArg Prod.snd keys)
        simp [same]
  cases operation with
  | indexInsert player =>
      exact own player
        ((Run.enrolled run).stored.mpr ⟨caller, .inl performing.allowed⟩)
  | indexRemove player =>
      have half : halfwayOf caller system.trace = some player :=
        performing.allowed
      exact own player (Run.stored_of_gone run (List.mem_map.mpr
        ⟨_, (Run.halfway run).taken half, rfl⟩))
  | _ => rfl

theorem Run.separate_of_distinctIds
    (run : Run config clock .distinctIds system) :
    Run config clock (.both .absentInserts .ownEntries) system := by
  apply Run.mono run (fun _ _ _ => rfl)
  intro system caller request operation run performing
  have once : Performing config .noOverlap system caller request operation :=
    ⟨performing.next, performing.allowed, rfl⟩
  exact Bool.and_eq_true_iff.mpr
    ⟨Run.inserts_absent (Run.noOverlap_of_distinctIds run) once,
      Run.touches_own run performing⟩

theorem Run.registered
    (run : Run config clock (.both .noResets .distinctIds) system) :
    Run config clock (.both .keptClaims .absentInserts) system := by
  apply Run.mono run (fun _ _ _ => rfl)
  intro system caller request operation run performing
  have once : Performing config .noOverlap system caller request operation :=
    ⟨performing.next, performing.allowed, rfl⟩
  exact Bool.and_eq_true_iff.mpr ⟨Run.keeps_claims (Run.left run) _ _,
    Run.inserts_absent (Run.noOverlap_of_distinctIds (Run.right run)) once⟩

theorem Run.queued
    (run : Run config clock (.both .noResets .distinctIds) system)
    (quiet : system.Quiet) {player : Player}
    (member : player ∈ stored system.trace)
    (waiting : (system.world.cells player).state = .waiting) :
    Queued system.world player := by
  have registered := Run.registered run
  have kept : player ∉ gone system.trace := by
    intro taken
    have state := Run.state run player
    obtain ⟨⟨caller, _⟩, removal, rfl⟩ := List.mem_map.mp taken
    rcases (Run.removals registered).done removal with final | final
    · rw [Run.final run final (.inl rfl), waiting] at state
      cases state
    · rw [Run.final run final (.inr rfl), waiting] at state
      cases state
  have found : system.world.primary.lookup player.id = some player :=
    (Run.lookup_iff (Run.right registered)).mpr ⟨rfl, member, kept⟩
  have zero := (Run.fields (Run.left run) player).waiting waiting
  exact ⟨waiting, zero .claimedBy, zero .claimTimestamp, found,
    Run.index_complete (Run.separate_of_distinctIds (Run.right run))
      (Run.indexed_of_quiet run quiet member) found⟩

/-- Live workers never book a player twice, and no player is left behind. -/
theorem no_double_booking
    (run : Run config clock (.both .noResets .distinctIds) system) :
    NoDoubleBooking system := by
  have live := Run.left run
  have own := Run.publishesOwn (Run.keptClaims_of_noResets live)
  refine ⟨?_, fun _ _ => Run.held_busy live, Run.published_nodup run own, ?_,
    ?_, ?_, ?_⟩
  · intro first second player holding holding'
    obtain ⟨transfer, last, rfl, _⟩ := Run.holder live holding
    obtain ⟨transfer', last', rfl, _⟩ := Run.holder live holding'
    rw [last] at last'
    cases last'
    rfl
  · intro publication member
    have recorded := Run.recorded run member
    exact ⟨recorded.distinct, recorded.sizeA, recorded.sizeB,
      recorded.recordA, recorded.recordB⟩
  · intro caller id returned
    obtain ⟨player, rfl, evicted⟩ := Run.cancelled run returned
    exact ⟨player, rfl, caller, returned, evicted⟩
  · intro player found
    obtain ⟨caller, _, evicted⟩ := found
    exact ⟨Run.published_not_evicted run own evicted,
      fun _ => Run.not_held live evicted⟩
  · intro quiet player member unpublished kept
    exact Run.queued run quiet member
      (Run.waiting_of_quiet run quiet unpublished kept)

end Run

/-- An attempt begins while another one holds ten players; they go on by turns,
and a player cancels in between. -/
def twoAttempts : List Action :=
  arrivals 22 1500 ++ .start (.attemptMatch 1) :: turns 22 100 ++
    .start (.attemptMatch 2) ::
      (List.replicate 30 (turns 22 1 ++ turns 23 1)).flatten ++
    .start (.cancel 22) :: turns 24 6 ++
    (List.replicate 53 (turns 22 1 ++ turns 23 1)).flatten ++ turns 23 100

set_option maxRecDepth 100000 in
theorem no_double_booking_match :
    ∃ system, Run .default ⟨0, 1000⟩ (.both .noResets .distinctIds) system ∧
      NoDoubleBooking system ∧ system.Quiet ∧
      (publications system.trace).length = 2 ∧
      (published system.trace).length = 20 ∧
      system.world.metrics.totalPlayersCancelled = 1 ∧
      system.world.primary.players.length = 1 := by
  obtain ⟨system, run, check⟩ : ∃ system,
      Run .default ⟨0, 1000⟩ (.both .noResets .distinctIds) system ∧
        decide (system.Quiet ∧ (publications system.trace).length = 2 ∧
          (published system.trace).length = 20 ∧
          system.world.metrics.totalPlayersCancelled = 1 ∧
          system.world.primary.players.length = 1) = true := by
    apply exists_run_of_play twoAttempts
    decide +kernel
  exact ⟨system, run, no_double_booking run, of_decide_eq_true check⟩

end Matchmaker
