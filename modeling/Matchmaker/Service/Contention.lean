import Matchmaker.Service.Answers

namespace Matchmaker

open Concurrent

/-! An attempt that cannot claim ten of its candidates has lost players to other
calls. -/

/-- Since the first state, another call than this one has claimed the player or
cancelled them. -/
def Taken (started now : System) (caller : Nat) (player : Player) : Prop :=
  ∃ newer transfer, now.trace = newer ++ started.trace ∧
    transfer ∈ transfers newer ∧ transfer.player = player ∧
    transfer.caller ≠ caller ∧ transfer.site.current = .waiting

section Run

variable {config : Config} {clock : Clock} {discipline : Discipline}
  {system first second : System} {player : Player}

/-- A player stops waiting only by being claimed or cancelled. -/
theorem Core.exchanged_of_left {core : Core} {choice : Choice}
    {operation : Operation} (waiting : (core.cells player).state = .waiting)
    (left : ((core.perform choice operation).2.cells player).state ≠
      .waiting) :
    ∃ site, operation = .exchange player site ∧ site.current = .waiting ∧
      (core.exchange player site).1 = true := by
  rcases cells_perform_cases core choice operation player with fresh | next
  · rw [fresh] at left
    exact absurd rfl left
  · rw [next] at left
    cases operation with
    | exchange other site =>
        simp only [PlayerCells.next] at left
        split at left
        · rename_i moved
          obtain ⟨success, same⟩ := Bool.and_eq_true_iff.mp moved
          obtain rfl := of_decide_eq_true same
          have current := exchange_succeeds_iff.mp success
          exact ⟨site, rfl, current.symm.trans waiting, success⟩
        · exact absurd waiting left
    | _ =>
        rw [PlayerCells.next_state (by simp)] at left
        exact absurd waiting left

/-- Who was waiting and is not any more was claimed or cancelled meanwhile. -/
theorem Later.left_waiting (later : Later config discipline first second)
    (waiting : (first.world.cells player).state = .waiting)
    (left : (second.world.cells player).state ≠ .waiting) :
    ∃ newer transfer, second.trace = newer ++ first.trace ∧
      transfer ∈ transfers newer ∧ transfer.player = player ∧
      transfer.site.current = .waiting := by
  induction later with
  | start => exact absurd waiting left
  | @step system action system' before _ moved induction =>
      cases action with
      | start request =>
          obtain ⟨task, _, rfl⟩ := Option.map_eq_some_iff.mp moved
          exact induction left
      | tick instant unixMs =>
          cases moved
          exact induction left
      | step caller choice =>
          obtain ⟨request, operation, next, _, rfl⟩ := Pool.advance_cases moved
          by_cases still : (system.world.cells player).state = .waiting
          · obtain ⟨site, rfl, current, success⟩ :=
              Core.exchanged_of_left still left
            obtain ⟨newer, split⟩ := (Later.grows before).trace
            refine ⟨⟨caller, .exchange player site, true⟩ :: newer,
              ⟨caller, player, site⟩, ?_, List.mem_cons_self, rfl, current⟩
            rw [List.cons_append, split, ← success]
            rfl
          · obtain ⟨newer, transfer, split, member, same, current⟩ :=
              induction still
            refine ⟨system.eventOf caller choice operation :: newer, transfer,
              ?_, transfers_subset _ _ member, same, current⟩
            rw [List.cons_append, ← split]

/-- A call that has done nothing with a player has not moved them. -/
theorem Run.untouched (run : Run config clock discipline system)
    {caller : Nat} (idle : phaseOf caller player system.trace = .idle)
    {transfer : Transfer} (member : transfer ∈ transfers system.trace)
    (same : transfer.player = player) : transfer.caller ≠ caller := by
  refine Run.invariant run (fun _ trace =>
    phaseOf caller player trace = .idle → transfer ∈ transfers trace →
      transfer.caller ≠ caller) nofun (fun _ _ holds => holds) ?_ idle member
  intro system mover request operation choice run performing holds idle member
  by_cases own : mover = caller
  · subst own
    have moved := performing.moves player choice
    rw [idle] at moved
    generalize earlier : phaseOf mover player system.trace = phase at moved
    generalize answer : (system.world.perform choice operation).1 = result
      at moved
    cases moved with
    | stay _ untouched =>
        rcases transfers_cons_cases member with before | event
        · exact holds earlier before
        · obtain rfl : operation = _ := congrArg Event.operation event
          have success := eq_of_heq (Event.mk.inj event).2.2
          rw [← answer, success] at untouched
          simp [Operation.Touches, same] at untouched
  · rw [phaseOf_other own] at idle
    rcases transfers_cons_cases member with earlier | event
    · exact holds idle earlier
    · have mine : mover = transfer.caller := congrArg Event.caller event
      rwa [← mine]

/-- A claim is tried on players only with whom the call has done nothing. -/
theorem Run.idle_of_claiming (run : Run config clock discipline system)
    {caller workerId nowMs : Nat} {success : Bool} {older : Trace}
    (claiming : system.trace =
      ⟨caller, .exchange player (.tryClaim workerId nowMs), success⟩ ::
        older) : phaseOf caller player older = .idle := by
  refine Run.invariant run (fun _ trace => trace =
      ⟨caller, .exchange player (.tryClaim workerId nowMs), success⟩ ::
        older → phaseOf caller player older = .idle) nofun
    (fun _ _ holds => holds) ?_ claiming
  intro system mover request operation choice run performing _ claiming
  obtain ⟨event, rfl⟩ := List.cons.inj claiming
  obtain rfl : mover = caller := congrArg Event.caller event
  obtain rfl : operation = _ := congrArg Event.operation event
  exact performing.allowed.2.2.1

end Run

/-- The player was waiting at a moment between the two states. -/
def Met (config : Config) (discipline : Discipline) (started now : System)
    (player : Player) : Prop :=
  ∃ met, Later config discipline started met ∧
    Later config discipline met now ∧
    (met.world.cells player).state = .waiting

/-- Between the two states the call has tried to claim the player in vain. -/
def Missed (config : Config) (discipline : Discipline) (caller : Nat)
    (started now : System) (player : Player) : Prop :=
  ∃ asked answered workerId nowMs, Later config discipline started asked ∧
    Later config discipline asked answered ∧
    Later config discipline answered now ∧
    (asked.world.cells player).state ≠ .waiting ∧
    answered.trace =
      ⟨caller, .exchange player (.tryClaim workerId nowMs), false⟩ ::
        asked.trace

section Attests

variable {config : Config} {clock : Clock} {discipline : Discipline}
  {started seen now : System} {caller : Nat} {player : Player}

theorem Met.later (met : Met config discipline started seen player)
    (waited : Later config discipline seen now) :
    Met config discipline started now player := by
  obtain ⟨moment, first, second, waiting⟩ := met
  exact ⟨moment, first, second.trans waited, waiting⟩

theorem Missed.earlier
    (missed : Missed config discipline caller seen now player)
    (waited : Later config discipline started seen) :
    Missed config discipline caller started now player := by
  obtain ⟨asked, answered, workerId, nowMs, first, rest⟩ := missed
  exact ⟨asked, answered, workerId, nowMs, waited.trans first, rest⟩

theorem Missed.later
    (missed : Missed config discipline caller started seen player)
    (waited : Later config discipline seen now) :
    Missed config discipline caller started now player := by
  obtain ⟨asked, answered, workerId, nowMs, first, second, third, rest⟩ :=
    missed
  exact ⟨asked, answered, workerId, nowMs, first, second, third.trans waited,
    rest⟩

/-- A player who was met waiting and could not be claimed was taken. -/
theorem Missed.taken (run : Run config clock discipline started)
    (met : Met config discipline started seen player)
    (missed : Missed config discipline caller seen now player) :
    Taken started now caller player := by
  obtain ⟨moment, first, second, waiting⟩ := met
  obtain ⟨asked, answered, workerId, nowMs, third, fourth, fifth, left,
    claiming⟩ := missed
  have onward := second.trans third
  obtain ⟨newer, transfer, split, member, same, current⟩ :=
    onward.left_waiting waiting left
  obtain ⟨older, before⟩ := first.grows.trace
  obtain ⟨newest, after⟩ := (fourth.trans fifth).grows.trace
  have reached := Later.run run (first.trans onward)
  have idle := Run.idle_of_claiming (Later.run reached fourth) claiming
  refine ⟨newest ++ newer ++ older, transfer, ?_, ?_, same, ?_, current⟩
  · rw [← after, split, ← before, List.append_assoc, List.append_assoc]
  · rw [transfers, List.filterMap_append, List.filterMap_append]
    exact List.mem_append_left _ (List.mem_append_right _ member)
  · apply Run.untouched reached idle ?_ same
    rw [split, transfers, List.filterMap_append]
    exact List.mem_append_left _ member

theorem attests_access_bind {post : α → System → Prop} {operation : Operation}
    {rest : operation.Result → Task α} :
    Attests (Later config discipline) caller post (access operation >>= rest)
        seen ↔
      ∀ (asked told : System) (choice : Choice),
        Later config discipline seen asked →
        Later config discipline asked told →
        told.world = (asked.world.perform choice operation).2 →
        told.trace = ⟨caller, operation,
          (asked.world.perform choice operation).1⟩ :: asked.trace →
        Attests (Later config discipline) caller post
          (rest (asked.world.perform choice operation).1) told :=
  Iff.rfl

theorem attests_scanEntries (entries : List Player)
    {candidates : List Player} (first : Later config discipline started seen)
    (met : ∀ player ∈ candidates,
      Met config discipline started seen player) :
    Attests (Later config discipline) caller (fun found now =>
        Later config discipline started now ∧ ∀ player ∈ found,
          Met config discipline started now player)
      (PlayerPool.scanEntries entries candidates) seen := by
  induction entries generalizing candidates seen with
  | nil => exact ⟨first, met⟩
  | cons entry rest induction =>
      unfold PlayerPool.scanEntries
      refine attests_access_bind.mpr fun asked told choice second third _ _ => ?_
      have kept : ∀ player ∈ candidates,
          Met config discipline started told player :=
        fun player member => (met player member).later (second.trans third)
      have first := (first.trans second).trans third
      generalize (asked.world.perform choice (.upgrade entry)).1 = alive
      cases alive with
      | false => exact induction first kept
      | true =>
          refine attests_access_bind.mpr fun looked shown choice' fourth fifth
            _ _ => ?_
          have kept : ∀ player ∈ candidates,
              Met config discipline started shown player :=
            fun player member => (kept player member).later
              (fourth.trans fifth)
          have later := (first.trans fourth).trans fifth
          split
          · exact induction later kept
          · rename_i waiting
            have grown : ∀ player ∈ candidates ++ [entry],
                Met config discipline started shown player := by
              intro player member
              rcases List.mem_append.mp member with earlier | new
              · exact kept player earlier
              · obtain rfl := List.mem_singleton.mp new
                exact ⟨looked, first.trans fourth, fifth,
                  Decidable.not_not.mp waiting⟩
            split
            · exact ⟨later, grown⟩
            · exact induction later grown

/-- The candidates are different players, each of whom was met waiting. -/
theorem attests_rangeScan (run : Run config clock discipline started)
    (minRating maxRating : Nat) (first : Later config discipline started seen) :
    Attests (Later config discipline) caller (fun found now =>
        Later config discipline started now ∧ found.Nodup ∧
          ∀ player ∈ found, Met config discipline started now player)
      (PlayerPool.rangeScan minRating maxRating) seen := by
  refine attests_access_bind.mpr fun asked told choice second third _ _ => ?_
  have asking := first.trans second
  have distinct := (Sound.credible (Run.sound (Later.run run asking)) choice
    (.indexRange (min minRating maxSkillRating, uuidNil)
      (min maxRating maxSkillRating, uuidMax))).1
  apply ((attests_scanEntries _ (asking.trans third) (by simp)).both
    (PlayerPool.reads_scanEntries _ []).attests).bind
  intro kept now found
  obtain ⟨⟨later, met⟩, _, rfl, sublist⟩ := found
  have perm : (PlayerPool.sortCandidates kept).Perm kept :=
    List.perm_insertionSort _ _
  refine ⟨later, perm.nodup_iff.mpr (distinct.sublist sublist), ?_⟩
  intro player member
  exact met player (perm.subset member)

theorem Taken.later (taken : Taken started seen caller player)
    (waited : Later config discipline seen now) :
    Taken started now caller player := by
  obtain ⟨newer, transfer, split, member, rest⟩ := taken
  obtain ⟨newest, after⟩ := waited.grows.trace
  refine ⟨newest ++ newer, transfer, ?_, ?_, rest⟩
  · rw [← after, split, List.append_assoc]
  · rw [transfers, List.filterMap_append]
    exact List.mem_append_right _ member

/-- Of the candidates that were tried, those that were not claimed were
missed. -/
theorem attests_claimCandidates (workerId nowMs : Nat) {rest : List Player}
    {claimed : List Player} (first : Later config discipline started seen) :
    Attests (Later config discipline) caller (fun found now =>
        Later config discipline started now ∧
          ∃ missed : List Player, missed.Sublist rest ∧
            (found.length < matchSize →
              found.length + missed.length = claimed.length + rest.length) ∧
            ∀ player ∈ missed,
              Missed config discipline caller started now player)
      (claimCandidates workerId nowMs rest claimed) seen := by
  induction rest generalizing claimed seen with
  | nil => exact ⟨first, [], .slnil, fun _ => rfl, by simp⟩
  | cons candidate rest induction =>
      unfold claimCandidates
      split
      · rename_i full
        exact ⟨first, [], List.nil_sublist _, fun few => by omega, by simp⟩
      · refine attests_access_bind.mpr fun asked told choice second third _
          trace => ?_
        have begun := (first.trans second).trans third
        generalize outcome : (asked.world.perform choice (.exchange candidate
          (.tryClaim workerId nowMs))).1 = success at trace ⊢
        cases success with
        | false =>
            have left : (asked.world.cells candidate).state ≠ .waiting := by
              intro waiting
              exact Bool.false_ne_true
                (outcome.symm.trans (exchange_succeeds_iff.mpr waiting))
            apply ((induction begun).both (attests_task _ told)).mono
            intro found now walked
            obtain ⟨⟨later, missed, sublist, count, all⟩, onward⟩ := walked
            refine ⟨later, candidate :: missed, sublist.cons_cons _, ?_, ?_⟩
            · intro few
              have counted := count few
              rw [List.length_cons, List.length_cons]
              omega
            · intro player member
              rcases List.mem_cons.mp member with rfl | earlier
              · exact ⟨asked, told, workerId, nowMs, first.trans second, third,
                  onward, left, trace⟩
              · exact all player earlier
        | true =>
            refine attests_access_bind.mpr fun _ owned _ fourth fifth _ _ => ?_
            refine attests_access_bind.mpr fun _ held _ sixth seventh _ _ => ?_
            have holding := (((begun.trans fourth).trans fifth).trans
              sixth).trans seventh
            apply (induction holding).mono
            intro found now walked
            obtain ⟨later, missed, sublist, count, all⟩ := walked
            refine ⟨later, missed, sublist.cons _, ?_, all⟩
            intro few
            have counted := count few
            rw [List.length_append, List.length_singleton] at counted
            rw [List.length_cons]
            omega

/-- The outcome of an attempt that could not claim ten players is down to the
players that other calls have taken. -/
def Contended (started now : System) (caller : Nat) :
    MatchAttemptResult → Prop
  | .claimFailed claimed needed => needed = matchSize ∧ claimed < needed ∧
      ∃ players : List Player, players.Nodup ∧
        needed ≤ claimed + players.length ∧
        ∀ player ∈ players, Taken started now caller player
  | _ => True

theorem attests_claimMatch (run : Run config clock discipline started)
    (ctx : WorkerContext) (state : WorkerState) (seed : Player)
    {candidates : List Player} (many : matchSize ≤ candidates.length)
    (distinct : candidates.Nodup)
    (met : ∀ player ∈ candidates,
      Met config discipline started seen player) :
    Attests (Later config discipline) caller
      (fun outcome now => Contended started now caller outcome.1)
      (claimMatch ctx state seed candidates) seen := by
  refine attests_access_bind.mpr fun asked told choice second third _ _ => ?_
  have begun := second.trans third
  apply (attests_claimCandidates ctx.workerId _
    (.start : Later config discipline told told)).bind
  intro claimed tried walked
  obtain ⟨onward, missed, sublist, count, all⟩ := walked
  split
  · rename_i few
    apply (attests_task _ tried).bind
    intro _ released later
    apply (attests_task _ released).bind
    intro _ now later'
    have counted := count few
    refine ⟨rfl, few, missed, distinct.sublist sublist, ?_, ?_⟩
    · rw [List.length_nil] at counted
      omega
    · intro player member
      apply Missed.taken run (met player (sublist.subset member))
      exact ((all player member).earlier begun).later (later.trans later')
  · iterate 5
      apply (attests_task _ _).bind
      intro _ _ _
    trivial

theorem attests_attemptMatch (run : Run config clock discipline started)
    (ctx : WorkerContext) (state : WorkerState) :
    Attests (Later config discipline) caller
      (fun outcome now => Contended started now caller outcome.1)
      (attemptMatch ctx state) started := by
  apply (attests_task _ _).bind
  intro found seen first
  cases found with
  | none => trivial
  | some seed =>
      apply (attests_task _ _).bind
      intro bounds bounded second
      apply (attests_task _ _).bind
      intro stage staged third
      apply (attests_task _ _).bind
      intro _ counted fourth
      apply (attests_rangeScan run _ _ (((first.trans second).trans
        third).trans fourth)).bind
      intro candidates scanned walked
      obtain ⟨_, distinct, met⟩ := walked
      split
      · apply (attests_task _ _).bind
        intro _ _ _
        trivial
      · rename_i many
        exact attests_claimMatch run ctx state seed (Nat.le_of_not_lt many)
          distinct met

end Attests

/-- An attempt fails to claim ten players only because other calls have
claimed or cancelled, during the attempt, as many of its candidates as it
lacks. -/
theorem attempt_contended {config : Config} {clock : Clock}
    {before started after : System} {workerId : Nat}
    (run : Run config clock .free before)
    (start : before.step config (.start (.attemptMatch workerId)) =
      some started)
    (later : Later config .free started after)
    {claimed needed : Nat} {state' : WorkerState}
    (returned : after.calls[before.calls.length]? =
      some ⟨.attemptMatch workerId,
        .pure (.attemptMatch (.claimFailed claimed needed) state')⟩) :
    needed = matchSize ∧ claimed < needed ∧
      ∃ players : List Player, players.Nodup ∧
        needed ≤ claimed + players.length ∧
        ∀ player ∈ players,
          Taken started after before.calls.length player := by
  have begun : Run config clock .free started := .step run rfl start
  have attests : ∀ task,
      before.program config (.attemptMatch workerId) = some task →
        Attests (Later config .free) before.calls.length
          (fun response now => ∀ outcome state',
            response = .attemptMatch outcome state' →
              Contended started now before.calls.length outcome)
          task started := by
    intro task launched
    obtain ⟨state, _, rfl⟩ := Option.map_eq_some_iff.mp launched
    apply (attests_attemptMatch begun _ state).map
    intro result now contended outcome state' same
    cases same
    exact contended
  obtain ⟨seen, waited, contended⟩ :=
    System.attested start later attests returned
  obtain ⟨ten, few, players, distinct, lacking, taken⟩ := contended _ _ rfl
  exact ⟨ten, few, players, distinct, lacking,
    fun player member => (taken player member).later waited⟩

/-- What an attempt of worker 2 came to that could not claim ten players. -/
def System.failed? (system : System) (caller : Nat) :
    Option (Nat × Nat × WorkerState) :=
  match system.calls[caller]? with
  | some ⟨.attemptMatch 2,
      .pure (.attemptMatch (.claimFailed claimed needed) state)⟩ =>
      some (claimed, needed, state)
  | _ => none

theorem System.found_of_failed {system : System} {caller claimed needed : Nat}
    {state : WorkerState}
    (failed : system.failed? caller = some (claimed, needed, state)) :
    system.calls[caller]? = some ⟨.attemptMatch 2,
      .pure (.attemptMatch (.claimFailed claimed needed) state)⟩ := by
  unfold failed? at failed
  split at failed
  · rename_i found
    cases failed
    exact found
  · cases failed

set_option maxRecDepth 100000 in
/-- Two attempts have the same candidates. The second one claims seven, for the
first has claimed three. -/
theorem attempt_contended_overtaken :
    ∃ (before started after : System) (players : List Player),
      Run .default ⟨0, 1000⟩ .free before ∧ players.Nodup ∧
      3 ≤ players.length ∧
      ∀ player ∈ players,
        Taken started after before.calls.length player := by
  obtain ⟨before, run, check⟩ : ∃ before,
      Run .default ⟨0, 1000⟩ .free before ∧
        ((before.step .default (.start (.attemptMatch 2))).any fun started =>
          (schedule (System.step .default) Discipline.free.permits started
            (turns 11 36 ++ turns 10 9 ++ turns 11 46)).any fun after =>
              decide ((after.failed? before.calls.length).map
                (fun failed => failed.1) = some 7)) = true := by
    apply exists_run_of_play (arrivals 10 1500 ++
      .start (.attemptMatch 1) :: turns 10 36)
    decide +kernel
  obtain ⟨started, start, further⟩ := (Option.any_eq_true _ _).mp check
  obtain ⟨after, later, further⟩ := exists_later further
  obtain ⟨⟨claimed, needed, state⟩, failed, rfl⟩ :=
    Option.map_eq_some_iff.mp (of_decide_eq_true further)
  obtain ⟨ten, _, players, distinct, lacking, taken⟩ :=
    attempt_contended run start later (System.found_of_failed failed)
  subst ten
  exact ⟨before, started, after, players, run, distinct,
    Nat.le_of_add_le_add_left lacking, taken⟩

end Matchmaker
