import Matchmaker.Outcome.Starvation
import Matchmaker.Safety.DualStructure
import Matchmaker.Outcome.Widening

namespace Matchmaker

open Concurrent

/-! Workers that race for the last ten players. -/

/-- No call is in progress, and ten players wait who could all be matched with
each other from the moment they joined. -/
structure Lined (config : Config) (system : System) : Prop where
  quiet : system.Quiet
  synchronised : Synchronised system.world
  ten : system.world.primary.players.length = matchSize
  waiting : ∀ player ∈ system.world.primary.players,
    (system.world.cells player).state = .waiting
  near : ∀ first ∈ system.world.primary.players,
    ∀ second ∈ system.world.primary.players,
      first.skillRating ≤ second.skillRating + config.relaxationStage1Delta

/-- Nothing but attempts is started. -/
def Discipline.attemptsOnly : Discipline where
  starts := fun _ request =>
    match request with
    | .attemptMatch _ => true
    | _ => false
  performs := fun _ _ _ => true

/-- No call gives back a claim. -/
def Discipline.noRollbacks : Discipline where
  starts := fun _ _ => true
  performs := fun _ _ operation =>
    match operation with
    | .exchange _ .releaseClaim => false
    | _ => true

/-- The attempts that were started after `start` have come to `system`. -/
abbrev Race (config : Config) (start : System) (discipline : Discipline) :
    System → Prop :=
  Reachable (System.step config) start fun system action =>
    (Discipline.both .attemptsOnly discipline).permits system action = true

/-- The call was started after `start`, and it has returned a match. -/
def Winner (start system : System) (caller : Nat) : Prop :=
  start.calls.length ≤ caller ∧ ∃ workerId record state,
    system.calls[caller]? =
      some ⟨.attemptMatch workerId, .pure (.attemptMatch (.success record)
        state)⟩

section Lined

variable {config : Config} {clock : Clock} {start : System}
  {env : String → Option String}

theorem Lined.consistent (lined : Lined config start)
    (run : Run config clock .free start) : Consistent start.world where
  toWellKeyed := (Run.sound run).keyed
  synchronised := lined.synchronised
  bounded := by
    intro id player found
    apply @Sound.indexed _ _ (Run.sound run) (player.skillRating, id) player
    rw [lined.synchronised, found]
    simp

theorem Lined.waiting_eq (lined : Lined config start) :
    start.world.waiting = start.world.primary.players := by
  apply List.filter_eq_self.mpr
  intro player member
  simp [Core.waits, lined.waiting player member]

theorem Lined.window_eq (lined : Lined config start)
    (run : Run config clock .free start)
    (valid : config.Valid) {seed : Player} (waits : seed ∈ start.world.waiting)
    (elapsedMs : Nat) :
    start.world.window
        (boundsWithin seed.skillRating (windowAfter config elapsedMs)) =
      start.world.primary.players := by
  rw [lined.waiting_eq] at waits
  rw [Core.window_eq, lined.waiting_eq]
  apply List.filter_eq_self.mpr
  intro player member
  have wider := (valid.staged.windowAfter_within elapsedMs).1
  have below := lined.near seed waits player member
  have above := lined.near player member seed waits
  obtain ⟨id, found⟩ := Primary.mem_players.mp member
  have bounded := (lined.consistent run).bounded found
  have within : seed.skillRating - windowAfter config elapsedMs ≤
        player.skillRating ∧
      player.skillRating ≤ min (min (seed.skillRating +
        windowAfter config elapsedMs) (2 ^ 32 - 1)) maxSkillRating := by
    simp only [maxSkillRating] at bounded ⊢
    omega
  rw [Player.outside, Bool.not_not, Bool.and_eq_true]
  exact within.imp decide_eq_true decide_eq_true

/-- An attempt that nobody interferes with succeeds, whatever the clock
shows. -/
theorem Lined.succeeds (lined : Lined config start)
    (run : Run config clock .free start) (valid : config.Valid)
    (workerId limit : Nat) (state : WorkerState) :
    Alone Clock.Anyhow start.world
      (attemptMatch ⟨workerId, config, limit⟩ state)
      (fun outcome _ => ∃ record, outcome.1 = .success record) := by
  apply (alone_attemptMatch (lined.consistent run)).mono
  intro outcome core' attempts
  cases attempts with
  | poolEmpty nobody drifts =>
      have ten := lined.ten
      rw [← lined.waiting_eq, nobody] at ten
      cases ten
  | @insufficient seed _ _ _ selects scans few staged drifts =>
      obtain ⟨moment, _, rfl⟩ := scans
      have whole := congrArg List.length (lined.window_eq run valid
        selects.waiting (moment.instant.msSince seed.joinTimestamp))
      rw [lined.ten] at whole
      exact absurd whole (Nat.ne_of_lt few)
  | success => exact ⟨_, rfl⟩

end Lined

section Race

variable {config : Config} {clock : Clock} {discipline : Discipline}
  {start system : System}

theorem Race.run (run : Run config clock .free start)
    (race : Race config start discipline system) :
    Run config clock .free system := by
  apply run.append race
  intro system action _
  cases action with
  | step caller choice =>
      cases h : system.nextOperation caller <;>
        simp [Discipline.permits, h, Discipline.free]
  | _ => rfl

/-- The calls of a race: those that were there before have returned, and those
that were started since are attempts. -/
structure Racing (start : System) (calls : List SystemCall) : Prop where
  grown : start.calls.length ≤ calls.length
  older : ∀ {caller call}, caller < start.calls.length →
    calls[caller]? = some call → call.program.returned?.isSome
  newer : ∀ {caller call}, start.calls.length ≤ caller →
    calls[caller]? = some call →
      ∃ workerId, call.request = .attemptMatch workerId

theorem Race.racing (quiet : start.Quiet)
    (race : Race config start discipline system) :
    Racing start system.calls := by
  apply @Reachable.invariant System Action (System.step config) start system _
    (fun system => Racing start system.calls) race
  · refine ⟨le_refl _,
      fun _ found => quiet _ (List.mem_of_getElem? found), ?_⟩
    intro caller call beyond found
    have within := (List.getElem?_eq_some_iff.mp found).1
    omega
  · intro system action system' reached racing permitted moved
    cases action with
    | start request =>
        obtain ⟨task, _, rfl⟩ := Option.map_eq_some_iff.mp moved
        have grown := racing.grown
        refine ⟨?_, fun before found => ?_, fun beyond found => ?_⟩
        · simp only [Pool.launch, List.length_append]
          omega
        · rcases Pool.launch_cases found with earlier | ⟨rfl, _⟩
          · exact racing.older before earlier
          · omega
        · rcases Pool.launch_cases found with earlier | ⟨_, rfl⟩
          · exact racing.newer beyond earlier
          · cases request with
            | attemptMatch workerId => exact ⟨workerId, rfl⟩
            | _ => cases permitted
    | tick instant unixMs =>
        cases moved
        exact racing
    | step caller choice =>
        obtain ⟨request, operation, next, found, rfl⟩ :=
          Pool.advance_cases moved
        obtain ⟨bound, _⟩ := List.getElem?_eq_some_iff.mp found
        refine ⟨by simpa using racing.grown,
          fun {other call} before reached => ?_,
          fun {other call} beyond reached => ?_⟩
        · by_cases same : caller = other
          · subst same
            cases racing.older before found
          · rw [List.getElem?_set_ne same] at reached
            exact racing.older before reached
        · by_cases same : caller = other
          · subst same
            rw [List.getElem?_set_self bound] at reached
            cases reached
            obtain ⟨workerId, asked⟩ := racing.newer beyond found
            exact ⟨workerId, asked⟩
          · rw [List.getElem?_set_ne same] at reached
            exact racing.newer beyond reached

/-- Invariant rule for races: only attempts of the race take a step. -/
theorem Race.invariant (run : Run config clock .free start)
    (quiet : start.Quiet) (race : Race config start discipline system)
    (property : Core → Trace → Prop)
    (initially : property start.world start.trace)
    (ticked : ∀ {core trace} instant unixMs, property core trace →
      property (core.advanceClock instant unixMs) trace)
    (performed : ∀ {system : System} {caller workerId operation} choice,
      Race config start discipline system → start.calls.length ≤ caller →
      Performing config (.both .attemptsOnly discipline) system caller
        (.attemptMatch workerId) operation →
      property system.world system.trace →
      property (system.world.perform choice operation).2
        (system.eventOf caller choice operation :: system.trace)) :
    property system.world system.trace := by
  apply @Reachable.invariant System Action (System.step config) start system _
    (fun system => property system.world system.trace) race initially
  intro system action system' race holds permitted moved
  rcases System.step_cases (Run.sound (Race.run run race)) permitted moved with
    ⟨request, task, _, _, _, rfl⟩ | ⟨instant, unixMs, _, rfl⟩ |
    ⟨caller, choice, request, operation, next, _, found, performing, rfl⟩
  · exact holds
  · exact ticked instant unixMs holds
  · have racing := Race.racing quiet race
    have new : start.calls.length ≤ caller := by
      by_contra old
      cases racing.older (by omega) found
    obtain ⟨workerId, rfl⟩ := racing.newer new found
    exact performed choice race new performing holds

theorem Performing.resets_nothing {caller workerId : Nat}
    {operation : Operation} {player : Player}
    (performing : Performing config discipline system caller
      (.attemptMatch workerId) operation) (nowMs : Nat) :
    operation ≠ .exchange player (.reaperReset nowMs) := by
  rintro rfl
  obtain ⟨timeout, claimTs, role, _⟩ := performing.allowed
  cases role

theorem Performing.inserts_nothing {caller workerId : Nat}
    {operation : Operation}
    (performing : Performing config discipline system caller
      (.attemptMatch workerId) operation)
    (run : Run config clock .free system) (player : Player) :
    operation ≠ .primaryInsert player ∧ operation ≠ .indexInsert player := by
  have named : (enrolmentOf caller system.trace).id? ≠ some player.id := by
    intro named
    obtain ⟨call, found, asked⟩ := Run.enqueues run named
    obtain ⟨next, found'⟩ := performing.next
    cases found.symm.trans found'
    cases asked
  constructor
  · rintro rfl
    have created : enrolmentOf caller system.trace = .created player :=
      performing.allowed
    exact named (by rw [created]; rfl)
  · rintro rfl
    have stored : enrolmentOf caller system.trace = .stored player :=
      performing.allowed
    exact named (by rw [stored]; rfl)

/-- The race is about these players only. -/
structure Confined (players : List Player) (first : Nat) (core : Core)
    (trace : Trace) : Prop where
  stored : ∀ {id player}, core.primary.lookup id = some player →
    player ∈ players
  indexed : ∀ {key : Nat × Uuid} {player}, core.index[key]? = some player →
    player ∈ players
  known : ∀ {caller}, first ≤ caller →
    (progressOf caller trace).known ⊆ players
  busy : ∀ {caller player}, first ≤ caller →
    phaseOf caller player trace ≠ .idle → player ∈ players

theorem Confined.learnt {players : List Player} {first : Nat} {core : Core}
    {trace : Trace} (confined : Confined players first core trace)
    (choice : Choice) (operation : Operation) :
    operation.learnt (core.perform choice operation).1 ⊆ players := by
  intro player member
  cases operation with
  | primaryGet id | primaryRemove id =>
      exact confined.stored (Option.mem_toList.mp member)
  | primaryIter =>
      obtain ⟨id, found⟩ := Primary.mem_players.mp
        ((choice.walk_perm core.primary.players).mem_iff.mp member)
      exact confined.stored found
  | indexRange lower upper =>
      obtain ⟨key, found, _⟩ := mem_indexRange.mp member
      exact confined.indexed found
  | _ => cases member

theorem Performing.stored_before {caller workerId : Nat}
    {operation : Operation} {choice : Choice}
    (performing : Performing config discipline system caller
      (.attemptMatch workerId) operation)
    (run : Run config clock .free system) {id : Uuid} {player : Player}
    (found : (system.world.perform choice operation).2.primary.lookup id =
      some player) : system.world.primary.lookup id = some player :=
  (Core.lookup_before found).resolve_right fun now =>
    (performing.inserts_nothing run player).1 now.1

theorem Performing.indexed_before {caller workerId : Nat}
    {operation : Operation} {choice : Choice}
    (performing : Performing config discipline system caller
      (.attemptMatch workerId) operation)
    (run : Run config clock .free system) {key : Nat × Uuid} {player : Player}
    (found : (system.world.perform choice operation).2.index[key]? =
      some player) : system.world.index[key]? = some player :=
  (Core.index_before found).resolve_right fun now =>
    (performing.inserts_nothing run player).2 now.1

theorem Race.confined (run : Run config clock .free start)
    (lined : Lined config start)
    (race : Race config start discipline system) :
    Confined start.world.primary.players start.calls.length system.world
      system.trace := by
  refine Race.invariant run lined.quiet race _ ?_
    (fun _ _ holds => ⟨holds.stored, holds.indexed, holds.known,
      holds.busy⟩) ?_
  · have stored : ∀ {id player}, start.world.primary.lookup id = some player →
        player ∈ start.world.primary.players :=
      fun found => Primary.mem_players.mpr ⟨_, found⟩
    refine ⟨stored, ?_, ?_, ?_⟩
    · rintro ⟨skillRating, id⟩ player found
      rw [lined.synchronised, Option.filter_eq_some_iff] at found
      exact stored found.1
    · intro caller beyond
      rw [Run.progress_beyond run beyond]
      exact List.nil_subset _
    · intro caller player beyond busy
      rw [phaseOf, Run.progress_beyond run beyond] at busy
      exact absurd rfl busy
  · intro system mover workerId operation choice race new performing confined
    have free := Race.run run race
    refine ⟨fun found => confined.stored (performing.stored_before free found),
      fun found => confined.indexed (performing.indexed_before free found),
      ?_, ?_⟩
    · intro caller beyond
      by_cases same : mover = caller
      · subst same
        rw [progressOf_self]
        exact List.append_subset.mpr
          ⟨confined.known beyond, confined.learnt choice operation⟩
      · rw [progressOf_other same]
        exact confined.known beyond
    · intro caller player beyond busy
      by_cases same : mover = caller
      · subst same
        have moved := performing.moves player choice
        have earlier := @Confined.busy _ _ _ _ confined mover player beyond
        generalize phaseOf mover player system.trace = before
          at moved earlier
        generalize phaseOf mover player (_ :: _) = after at moved busy
        generalize (system.world.perform choice operation).1 = result at moved
        cases moved with
        | claim => exact confined.known new performing.allowed.2.1
        | evict | suspect => exact confined.known new performing.allowed.2.1
        | stay => exact earlier busy
        | _ => exact earlier (by simp)
      · rw [phaseOf_other same] at busy
        exact confined.busy beyond busy

theorem Race.owns (run : Run config clock .free start) (quiet : start.Quiet)
    (race : Race config start discipline system) {caller : Nat}
    {player : Player} (active : (phaseOf caller player system.trace).Active) :
    Owns caller player system.trace := by
  refine Race.invariant run quiet race (fun _ trace => ∀ caller,
    (phaseOf caller player trace).Active → Owns caller player trace) ?_
    (fun _ _ holds => holds) ?_ caller active
  · intro caller active
    rw [phaseOf, (Run.rested_of_quiet run quiet caller).inactive] at active
    cases active
  · intro system mover workerId operation choice race _ performing owns caller
    exact performing.owns (Race.run run race) owns
      (performing.resets_nothing ·) choice

theorem Race.never_missed (run : Run config clock .free start)
    (quiet : start.Quiet) (race : Race config start discipline system)
    {caller : Nat} (new : start.calls.length ≤ caller) {player : Player} :
    phaseOf caller player system.trace ≠ .missed := by
  refine Race.invariant run quiet race (fun _ trace =>
    phaseOf caller player trace ≠ .missed) ?_ (fun _ _ holds => holds) ?_
  · rw [phaseOf, Run.progress_beyond run new]
    rintro ⟨⟩
  · intro system mover workerId operation choice race _ performing holds missed
    by_cases same : mover = caller
    · subst same
      have moved := performing.moves player choice
      have owns := @Race.owns _ _ _ _ _ run quiet race mover player
      rw [missed] at moved
      generalize phaseOf mover player system.trace = before
        at moved holds owns
      generalize answer : (system.world.perform choice operation).1 = result
        at moved
      cases moved with
      | miss =>
          obtain ⟨claim, inForce, _⟩ := owns rfl
          have success : (system.world.exchange player .markMatched).1 =
              true := exchange_succeeds_iff.mpr
            ((Run.claimed_iff (Race.run run race)).mpr ⟨claim, inForce⟩)
          exact Bool.false_ne_true (answer.symm.trans success)
      | stay => exact holds rfl
    · rw [phaseOf_other same] at missed
      exact holds missed

theorem Race.winner_marked (run : Run config clock .free start)
    (lined : Lined config start) (race : Race config start discipline system)
    {caller : Nat} (winner : Winner start system caller) {player : Player}
    (member : player ∈ start.world.primary.players) :
    ⟨caller, player, .markMatched⟩ ∈ transfers system.trace := by
  obtain ⟨new, workerId, record, state, found⟩ := winner
  have free := Race.run run race
  have completed : Completed (progressOf caller system.trace) :=
    (Run.sound free).follows.returned found
  have marked : ∀ other ∈ (progressOf caller system.trace).published,
      phaseOf caller other system.trace = .marked := fun other published =>
    ((completed.settled other).mp published).resolve_right
      (Race.never_missed run lined.quiet race new)
  have inside : (progressOf caller system.trace).published ⊆
      start.world.primary.players := fun other published =>
    (Race.confined run lined race).busy new (by rw [marked other published]; nofun)
  have distinct : (progressOf caller system.trace).published.Nodup := by
    cases published : (progressOf caller system.trace).published with
    | nil => exact .nil
    | cons first rest =>
        obtain ⟨publication, among, rfl, _⟩ := Run.publication_of free
          (published ▸ List.mem_cons_self .. :
            first ∈ (progressOf caller system.trace).published)
        have recorded := Run.recorded free among
        rw [← published, recorded.players]
        exact recorded.distinct
  have whole := (distinct.subperm inside).perm_of_length_le
    (lined.ten.trans completed.published.symm).le
  exact (Run.settled_iff free rfl).mp (marked player (whole.mem_iff.mpr member))

theorem Race.winner_unique (run : Run config clock .free start)
    (lined : Lined config start) (race : Race config start discipline system)
    {first second : Nat} (winner : Winner start system first)
    (winner' : Winner start system second) : first = second := by
  have someone : start.world.primary.players ≠ [] := by
    intro nobody
    have ten := lined.ten
    rw [nobody] at ten
    cases ten
  obtain ⟨player, member⟩ := List.exists_mem_of_ne_nil _ someone
  have same := Run.final_unique (Race.run run race)
    (Race.winner_marked run lined race winner member)
    (Race.winner_marked run lined race winner' member) (.inl rfl) (.inl rfl)
    rfl
  exact congrArg Transfer.caller same

def Response.Succeeds : Response → Prop
  | .attemptMatch (.success _) _ => True
  | _ => False

/-- Nobody has claimed anything yet: whoever goes on alone will succeed. -/
structure Unclaimed (start system : System) : Prop where
  strays : start.world.Strays system.world
  fresh : ∀ {caller}, start.calls.length ≤ caller →
    Progress.start.Extends (progressOf caller system.trace)
  ready : ∀ {caller call}, start.calls.length ≤ caller →
    system.calls[caller]? = some call →
      call.program.Ensures semantics Core.Strays
        (fun response _ => response.Succeeds) system.world

/-- The call will not let go of the player any more. -/
def Phase.Kept (phase : Phase) : Bool :=
  phase.Active || phase = .marked || phase = .missed

/-- Somebody has claimed a player, or matched it already. -/
def Claimed (first : Nat) (trace : Trace) : Prop :=
  ∃ caller player, first ≤ caller ∧ (phaseOf caller player trace).Kept

theorem Moves.kept {player : Player} {operation : Operation}
    {result : operation.Result} {before after : Phase}
    (moved : Moves player operation result before after) (kept : before.Kept)
    (held : operation ≠ .exchange player .releaseClaim) : after.Kept := by
  cases moved with
  | stay => exact kept
  | release => exact absurd rfl held
  | _ => first
    | rfl
    | cases kept

theorem Claimed.step {first mover : Nat} {request : Request}
    {operation : Operation} (claimed : Claimed first system.trace)
    (performing : Performing config .noRollbacks system mover request operation)
    (choice : Choice) :
    Claimed first
      (system.eventOf mover choice operation :: system.trace) := by
  obtain ⟨caller, player, beyond, kept⟩ := claimed
  refine ⟨caller, player, beyond, ?_⟩
  by_cases same : mover = caller
  · subst same
    apply (performing.moves player choice).kept kept
    rintro rfl
    cases performing.permitted
  · rw [phaseOf_other same]
    exact kept

theorem fresh_operation {workerId : Nat} {progress : Progress}
    {operation : Operation} (fresh : Progress.start.Extends progress)
    (allowed : operation.Allowed (.attemptMatch workerId) progress) :
    operation.Passive ∨
      ∃ player nowMs, operation = .exchange player (.tryClaim workerId nowMs) := by
  have idle : ∀ player, progress.phase player = .idle :=
    fun player => congrFun fresh.phase player
  cases operation with
  | exchange player site =>
      cases site with
      | tryClaim other nowMs =>
          cases allowed.1
          exact .inr ⟨player, nowMs, rfl⟩
      | releaseClaim | markMatched =>
          cases (idle player).symm.trans allowed
      | tryEvict => cases allowed.1
      | reaperReset nowMs =>
          obtain ⟨_, _, role, _⟩ := allowed
          cases role
  | storeClaimedBy player value =>
      rcases allowed with ⟨_, phase⟩ | ⟨_, ⟨_, _, phase⟩ | phase⟩ <;>
        cases (idle player).symm.trans phase
  | storeClaimTimestamp player value =>
      rcases allowed with ⟨_, phase⟩ | ⟨_, phase | phase⟩ <;>
        cases (idle player).symm.trans phase
  | storeMatchedAt player value =>
      obtain ⟨_, _, phase⟩ := allowed
      cases (idle player).symm.trans phase
  | loadClaimTimestamp player =>
      obtain ⟨⟨_, role⟩, _⟩ := allowed
      cases role
  | primaryContains id =>
      obtain ⟨⟨_, role⟩, _⟩ := allowed
      cases role
  | allocate id skillRating joinTimestamp => cases allowed.1
  | primaryInsert player => cases fresh.enrolment.symm.trans allowed
  | indexInsert player => cases fresh.enrolment.symm.trans allowed
  | primaryRemove id =>
      obtain ⟨_, player, rest, pending, _⟩ := allowed
      rw [fresh.removal] at pending
      cases pending
  | indexRemove player =>
      have halfway : progress.removal.halfway = some player := allowed
      rw [fresh.removal] at halfway
      cases halfway
  | pushHistory teamA teamB record limit =>
      obtain ⟨_, publishes⟩ := allowed
      cases teamA with
      | nil => cases publishes.sizeA
      | cons player rest =>
          rcases (publishes.players player).mp (.head _) with phase | phase <;>
            cases (idle player).symm.trans phase
  | _ => exact .inl rfl

theorem strays_perform {core : Core} {operation : Operation}
    (passive : operation.Passive) (choice : Choice) :
    core.Strays (core.perform choice operation).2 := by
  cases operation <;> first
    | exact ⟨_, _, rfl⟩
    | cases passive

theorem Unclaimed.keep {mover : Nat} {request : Request}
    {operation : Operation} {next : operation.Result → Task Response}
    {choice : Choice} (unclaimed : Unclaimed start system)
    (found : system.calls[mover]? =
      some ⟨request, .perform operation next⟩)
    (strays : system.world.Strays (system.world.perform choice operation).2)
    (extended : (progressOf mover system.trace).Extends
      ((progressOf mover system.trace).next operation
        (system.world.perform choice operation).1)) :
    Unclaimed start {
      world := (system.world.perform choice operation).2
      calls := system.calls.set mover
        ⟨request, next (system.world.perform choice operation).1⟩
      trace := system.eventOf mover choice operation :: system.trace } := by
  obtain ⟨bound, _⟩ := List.getElem?_eq_some_iff.mp found
  refine ⟨unclaimed.strays.trans strays, ?_, ?_⟩
  · intro caller beyond
    by_cases same : mover = caller
    · subst same
      rw [progressOf_self]
      exact (unclaimed.fresh beyond).trans extended
    · rw [progressOf_other same]
      exact unclaimed.fresh beyond
  · intro caller call beyond reached
    by_cases same : mover = caller
    · subst same
      rw [List.getElem?_set_self bound] at reached
      cases reached
      exact unclaimed.ready beyond found _ (.refl _) choice
    · rw [List.getElem?_set_ne same] at reached
      exact ensures_strays (unclaimed.ready beyond reached) strays

theorem Unclaimed.drift {instant unixMs : Nat}
    (unclaimed : Unclaimed start system) :
    Unclaimed start { system with
      world := system.world.advanceClock instant unixMs } := by
  have strays : system.world.Strays
      (system.world.advanceClock instant unixMs) := ⟨_, _, rfl⟩
  exact ⟨unclaimed.strays.trans strays, unclaimed.fresh,
    fun beyond found => ensures_strays (unclaimed.ready beyond found) strays⟩

theorem Unclaimed.launch (run : Run config clock .free start)
    (lined : Lined config start) (valid : config.Valid)
    (unclaimed : Unclaimed start system) {workerId : Nat}
    {task : Task Response}
    (launched : system.program config (.attemptMatch workerId) = some task) :
    Unclaimed start (system.launch (.attemptMatch workerId) task) := by
  refine ⟨unclaimed.strays, unclaimed.fresh, fun beyond found => ?_⟩
  rcases Pool.launch_cases found with earlier | ⟨_, rfl⟩
  · exact unclaimed.ready beyond earlier
  · obtain ⟨state, _, rfl⟩ := Option.map_eq_some_iff.mp launched
    refine Alone.strays (Program.Ensures.map (lined.succeeds run valid workerId
      matchHistoryLimit state) ?_) unclaimed.strays
    rintro ⟨_, _⟩ _ ⟨record, rfl⟩
    exact trivial

theorem Unclaimed.step {mover workerId : Nat} {operation : Operation}
    {next : operation.Result → Task Response} {choice : Choice}
    (unclaimed : Unclaimed start system) (new : start.calls.length ≤ mover)
    (found : system.calls[mover]? =
      some ⟨.attemptMatch workerId, .perform operation next⟩)
    (performing : Performing config discipline system mover
      (.attemptMatch workerId) operation) :
    Unclaimed start {
        world := (system.world.perform choice operation).2
        calls := system.calls.set mover ⟨.attemptMatch workerId,
          next (system.world.perform choice operation).1⟩
        trace := system.eventOf mover choice operation :: system.trace } ∨
      Claimed start.calls.length
        (system.eventOf mover choice operation :: system.trace) := by
  have fresh := unclaimed.fresh new
  rcases fresh_operation fresh performing.allowed with
    passive | ⟨player, nowMs, rfl⟩
  · exact .inl (unclaimed.keep found (strays_perform passive choice)
      (Progress.extends_next _ _ passive))
  · cases success : (system.world.exchange player
        (.tryClaim workerId nowMs)).1 with
    | true =>
        refine .inr ⟨mover, player, new, ?_⟩
        rw [performing.claiming success choice]
        rfl
    | false =>
        have same : (system.world.perform choice
            (.exchange player (.tryClaim workerId nowMs))).2 =
              system.world := by
          simp only [Core.perform, Core.exchange] at success ⊢
          split at success
          · cases success
          · rename_i busy
            rw [if_neg busy]
        refine .inl (unclaimed.keep found ?_ ?_)
        · rw [same]
          exact .refl _
        · show (progressOf mover system.trace).Extends
            ((progressOf mover system.trace).next
              (.exchange player (.tryClaim workerId nowMs))
              (system.world.exchange player (.tryClaim workerId nowMs)).1)
          have idle : (progressOf mover system.trace).phase player = .idle :=
            performing.allowed.2.2.1
          rw [success, Progress.next_exchange_keeping rfl, idle,
            show Phase.idle.exchanged (.tryClaim workerId nowMs) false = .idle
              from rfl, Progress.setPhase_same idle]
          exact .refl _

/-- As long as nobody gives a claim back, the race is open until somebody
claims, and won from then on. -/
theorem Race.contest (run : Run config clock .free start)
    (lined : Lined config start) (valid : config.Valid)
    (race : Race config start .noRollbacks system) :
    Unclaimed start system ∨ Claimed start.calls.length system.trace := by
  apply @Reachable.invariant System Action (System.step config) start system _
    (fun system => Unclaimed start system ∨
      Claimed start.calls.length system.trace) race
  · refine .inl ⟨.refl _, fun beyond => ?_, fun beyond found => ?_⟩
    · rw [Run.progress_beyond run beyond]
      exact .refl _
    · have within := (List.getElem?_eq_some_iff.mp found).1
      omega
  · intro system action system' race contest permitted moved
    rcases System.step_cases (Run.sound (Race.run run race)) permitted moved
      with ⟨request, task, _, started, launched, rfl⟩ |
        ⟨instant, unixMs, _, rfl⟩ |
        ⟨mover, choice, request, operation, next, _, found, performing, rfl⟩
    · cases request with
      | attemptMatch workerId =>
          exact contest.imp_left fun unclaimed =>
            unclaimed.launch run lined valid launched
      | _ => cases started
    · exact contest.imp_left Unclaimed.drift
    · have racing := Race.racing lined.quiet race
      have new : start.calls.length ≤ mover := by
        by_contra old
        cases racing.older (by omega) found
      obtain ⟨workerId, rfl⟩ := racing.newer new found
      rcases contest with unclaimed | claimed
      · exact unclaimed.step new found performing
      · exact .inr (claimed.step performing.right choice)

theorem Race.winner_of_kept (run : Run config clock .free start)
    (quiet : start.Quiet) (race : Race config start discipline system)
    (rest : system.Quiet) {caller : Nat} (new : start.calls.length ≤ caller)
    {player : Player} (kept : (phaseOf caller player system.trace).Kept) :
    Winner start system caller := by
  have free := Race.run run race
  have settled : phaseOf caller player system.trace ≠ .idle ∧
      phaseOf caller player system.trace ≠ .released := by
    constructor <;> intro phase <;> rw [phase] at kept <;> cases kept
  cases found : system.calls[caller]? with
  | none =>
      refine absurd ?_ settled.1
      rw [phaseOf, Run.progress_beyond free (List.getElem?_eq_none_iff.mp found)]
      rfl
  | some call =>
      obtain ⟨workerId, asked⟩ := (Race.racing quiet race).newer new found
      have returned := rest call (List.mem_of_getElem? found)
      obtain ⟨request, program⟩ := call
      obtain rfl : request = .attemptMatch workerId := asked
      cases program with
      | perform operation next => cases returned
      | pure response =>
          have finished := (Run.sound free).follows.returned found
          cases response with
          | attemptMatch outcome state =>
              cases outcome with
              | success record => exact ⟨new, workerId, record, state, found⟩
              | _ =>
                  have abandoned : Abandoned (progressOf caller system.trace) :=
                    finished
                  rcases abandoned.phase player with phase | phase
                  · exact absurd phase settled.1
                  · exact absurd phase settled.2
          | _ => cases finished

/-- If no call gives back a claim, exactly one attempt of every race succeeds,
however many there are. -/
theorem race_winner {env : String → Option String}
    (accepted : Config.fromEnv env = .ok config)
    (run : Run config clock .free start) (lined : Lined config start)
    (race : Race config start .noRollbacks system) (rest : system.Quiet)
    (entered : start.calls.length < system.calls.length) :
    ∃! caller, Winner start system caller := by
  have valid := Config.fromEnv_valid accepted
  obtain ⟨caller, winner⟩ : ∃ caller, Winner start system caller := by
    rcases Race.contest run lined valid race with
      unclaimed | ⟨caller, player, new, kept⟩
    · obtain ⟨⟨request, program⟩, found⟩ :
          ∃ call, system.calls[start.calls.length]? = some call :=
        ⟨_, List.getElem?_eq_getElem entered⟩
      obtain ⟨workerId, rfl⟩ :=
        (Race.racing lined.quiet race).newer (le_refl _) found
      have returned := rest _ (List.mem_of_getElem? found)
      cases program with
      | perform operation next => cases returned
      | pure response =>
          have succeeds : response.Succeeds :=
            unclaimed.ready (le_refl _) found
          cases response with
          | attemptMatch outcome state =>
              cases outcome with
              | success record =>
                  exact ⟨_, le_refl _, workerId, record, state, found⟩
              | _ => cases succeeds
          | _ => cases succeeds
    · exact ⟨caller, Race.winner_of_kept run lined.quiet race rest new kept⟩
  exact ⟨caller, winner, fun other winner' =>
    Race.winner_unique run lined race winner' winner⟩

end Race

section Schedules

variable {config : Config} {clock : Clock} {discipline : Discipline}

/-- What `Lined` says beyond the agreement of the stores. -/
def Waits (config : Config) (system : System) : Prop :=
  system.Quiet ∧ system.world.primary.players.length = matchSize ∧
    (∀ player ∈ system.world.primary.players,
      (system.world.cells player).state = .waiting) ∧
    ∀ first ∈ system.world.primary.players,
      ∀ second ∈ system.world.primary.players,
        first.skillRating ≤ second.skillRating + config.relaxationStage1Delta

instance (config : Config) (system : System) :
    Decidable (Waits config system) :=
  inferInstanceAs (Decidable (_ ∧ _ ∧ _ ∧ _))

theorem Waits.lined {system : System} (waits : Waits config system)
    (run : Run config clock .separateSteps system) : Lined config system where
  quiet := waits.1
  synchronised := by
    intro skillRating id
    apply Option.ext
    intro player
    rw [Option.filter_eq_some_iff, decide_eq_true_iff]
    exact Run.entry_iff run waits.1
  ten := waits.2.1
  waiting := waits.2.2.1
  near := waits.2.2.2

theorem exists_race_of_play {check : System → System → Bool}
    (joins actions : List Action)
    (ran : ((play config clock .separateSteps joins).any fun start =>
      decide (Waits config start) && (schedule (System.step config)
        (Discipline.both .attemptsOnly discipline).permits start
          actions).any (check start)) = true) :
    ∃ start system, Run config clock .free start ∧ Lined config start ∧
      Race config start discipline system ∧ check start system = true := by
  obtain ⟨start, played, raced⟩ := (Option.any_eq_true _ _).mp ran
  obtain ⟨waits, raced⟩ := Bool.and_eq_true_iff.mp raced
  obtain ⟨system, scheduled, checked⟩ := (Option.any_eq_true _ _).mp raced
  have run := Run.played played
  exact ⟨start, system, Run.mono run (fun _ _ _ => rfl) fun _ _ => rfl,
    (of_decide_eq_true waits).lined run,
    Reachable.schedule (fun _ _ permitted => permitted) .start scheduled,
    checked⟩

end Schedules

/-- Two workers have scanned the same ten players. -/
def bothScanned : List Action :=
  .start (.attemptMatch 1) :: .start (.attemptMatch 2) ::
    turns 10 36 ++ turns 11 36

set_option maxRecDepth 100000 in
/-- The first worker claims all ten while the second one waits. -/
theorem race_winner_two :
    ∃ start system, Run .default ⟨0, 1000⟩ .free start ∧
      Lined .default start ∧ Race .default start .noRollbacks system ∧
      system.Quiet ∧ system.calls.length = start.calls.length + 2 ∧
      ∃! caller, Winner start system caller := by
  obtain ⟨start, system, run, lined, race, check⟩ :=
    @exists_race_of_play .default ⟨0, 1000⟩ .noRollbacks
      (fun start system => decide (system.Quiet ∧
        system.calls.length = start.calls.length + 2))
      (arrivals 10 1500)
      (bothScanned ++ turns 10 30 ++ turns 11 11 ++ turns 10 81)
      (by decide +kernel)
  obtain ⟨quiet, two⟩ := of_decide_eq_true check
  exact ⟨start, system, run, lined, race, quiet, two,
    @race_winner _ _ _ _ (fun _ => none) Config.fromEnv_unset run lined race
      quiet (by omega)⟩

def hasWon (call : SystemCall) : Bool :=
  match call.program with
  | .pure (.attemptMatch (.success _) _) => true
  | _ => false

set_option maxRecDepth 100000 in
/-- The first worker claims one of the ten and the second the other nine. Both
give back what they have. -/
theorem exists_no_winner :
    ∃ start system, Run .default ⟨0, 1000⟩ .free start ∧
      Lined .default start ∧ Race .default start .free system ∧
      system.Quiet ∧ system.calls.length = start.calls.length + 2 ∧
      ∀ caller, ¬ Winner start system caller := by
  obtain ⟨start, system, run, lined, race, check⟩ :=
    @exists_race_of_play .default ⟨0, 1000⟩ .free
      (fun start system => decide (system.Quiet ∧
        system.calls.length = start.calls.length + 2 ∧
        ∀ call ∈ system.calls, hasWon call = false))
      (arrivals 10 1500)
      (bothScanned ++ turns 10 3 ++ turns 11 28 ++ turns 10 13 ++ turns 11 28)
      (by decide +kernel)
  obtain ⟨quiet, two, lost⟩ := of_decide_eq_true check
  refine ⟨start, system, run, lined, race, quiet, two, ?_⟩
  intro caller given
  obtain ⟨_, workerId, record, state, found⟩ := given
  have none := lost _ (List.mem_of_getElem? found)
  cases none

end Matchmaker
