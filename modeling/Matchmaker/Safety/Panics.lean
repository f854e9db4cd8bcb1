import Matchmaker.Checked.Conformance
import Matchmaker.Checked.System
import Matchmaker.Protocol.Custody

namespace Matchmaker

open Concurrent

/-! A debug build never panics while no wait becomes too long. -/

def markOf : Event memory → Option (Player × Instant)
  | ⟨_, .storeMatchedAt player now, _⟩ => some (player, now)
  | _ => none

/-- The players that were marked as matched, each with the time of it. -/
def marks (trace : Trace) : List (Player × Instant) :=
  trace.filterMap markOf

theorem mem_marks_cons {system : System} {caller : Nat} {choice : Choice}
    {operation : Operation} {player : Player} {instant : Instant} :
    (player, instant) ∈
        marks (system.eventOf caller choice operation :: system.trace) ↔
      (player, instant) ∈ marks system.trace ∨
        operation = .storeMatchedAt player instant := by
  cases operation with
  | storeMatchedAt other value =>
      simp [marks, markOf, or_comm, eq_comm]
  | _ => exact ⟨.inl, fun either => either.resolve_right (by simp)⟩

theorem mark_of_dated {caller : Nat} {player : Player} :
    ∀ {trace : Trace}, player ∈ dating.ghost caller trace →
      ∃ instant, (player, instant) ∈ marks trace
  | [], member => by cases member
  | ⟨other, operation, result⟩ :: trace, member => by
      have earlier : player ∈ dating.ghost caller trace →
          ∃ instant, (player, instant) ∈
            marks (⟨other, operation, result⟩ :: trace) := by
        intro before
        obtain ⟨instant, listed⟩ := mark_of_dated before
        exact ⟨instant,
          ((List.sublist_cons_self ..).filterMap markOf).subset listed⟩
      by_cases same : other = caller
      · subst same
        rw [Contract.ghost_self] at member
        cases operation with
        | storeMatchedAt marked now =>
            rcases List.mem_cons.mp member with rfl | before
            · exact ⟨now, List.mem_cons_self ..⟩
            · exact earlier before
        | _ => exact earlier member
      · rw [Contract.ghost_other same] at member
        exact earlier member

theorem PlayerCells.next_matchedAt {cells : PlayerCells} {player : Player}
    {operation : Operation} {result : operation.Result}
    (noMark : ∀ value, operation ≠ .storeMatchedAt player value) :
    (cells.next player operation result).matchedAt = cells.matchedAt := by
  cases operation with
  | storeMatchedAt other value =>
      have different : other ≠ player := by
        intro same
        subst same
        exact noMark value rfl
      simp only [next, if_neg different]
  | exchange | storeClaimedBy | storeClaimTimestamp =>
      simp only [next]
      split
      · rfl
      · rfl
  | _ => rfl

/-- The times of matches are those of the marks. -/
structure Marked (core : Core) (trace : Trace) : Prop where
  written : ∀ {player instant},
    (core.cells player).matchedAt = some instant →
    (player, instant) ∈ marks trace
  kept : ∀ {player instant}, (player, instant) ∈ marks trace →
    player.address < core.allocated ∧ (core.cells player).matchedAt ≠ none

theorem Marked.new (clock : Clock) : Marked (Core.new clock) [] where
  written := by
    intro player instant written
    cases written
  kept := by
    intro player instant listed
    cases listed

section Runs

variable {config : Config} {clock : Clock} {discipline : Discipline}
  {system : System}

theorem Run.rated_of_primary (run : Run config clock discipline system)
    {id : Uuid} {player : Player}
    (found : system.world.primary.lookup id = some player) :
    player.skillRating ≤ maxSkillRating := by
  have member := Run.stored_of_primary run found
  obtain ⟨caller, has⟩ := (Run.enrolled run).stored.mp member
  have enrolled : (enrolmentOf caller system.trace).player? = some player := by
    rcases has with has | has
    · rw [has]
      rfl
    · rw [has]
      rfl
  exact (Run.sound run).enrolled enrolled

theorem Marked.perform {caller : Nat} {request : Request}
    {operation : Operation} (marked : Marked system.world system.trace)
    (run : Run config clock discipline system)
    (performing : Performing config discipline system caller request operation)
    (choice : Choice) :
    Marked (system.world.perform choice operation).2
      (system.eventOf caller choice operation :: system.trace) where
  written := by
    intro player instant written
    rw [mem_marks_cons]
    rcases cells_perform_cases system.world choice operation player with
      new | next
    · rw [new] at written
      cases written
    · rw [next] at written
      by_cases mark : ∃ value, operation = .storeMatchedAt player value
      · obtain ⟨value, rfl⟩ := mark
        simp only [PlayerCells.next, if_true] at written
        cases written
        exact .inr rfl
      · rw [PlayerCells.next_matchedAt (not_exists.mp mark)] at written
        exact .inl (marked.written written)
  kept := by
    intro player instant listed
    have grows := allocated_perform system.world choice operation
    have old : player.address < system.world.allocated := by
      rcases mem_marks_cons.mp listed with earlier | rfl
      · exact (marked.kept earlier).1
      · obtain ⟨workerId, nowMs, held⟩ := performing.allowed
        apply Run.stored_old run
        apply Run.stored_of_phase run
        rw [phaseOf, held]
        exact Phase.noConfusion
    refine ⟨old.trans_le grows, ?_⟩
    rw [cells_perform_old old]
    by_cases mark : ∃ value, operation = .storeMatchedAt player value
    · obtain ⟨value, rfl⟩ := mark
      simp [PlayerCells.next]
    · rw [PlayerCells.next_matchedAt (not_exists.mp mark)]
      rcases mem_marks_cons.mp listed with earlier | now
      · exact (marked.kept earlier).2
      · exact absurd ⟨instant, now⟩ mark

theorem Run.marked (run : Run config clock discipline system) :
    Marked system.world system.trace := by
  apply Run.invariant run Marked
  · exact .new clock
  · intro core trace instant unixMs marked
    exact ⟨marked.written, marked.kept⟩
  · intro system caller request operation choice run performing marked
    exact marked.perform run performing choice

theorem Run.expects (run : Run config clock discipline system)
    (waits : ∀ mark ∈ marks system.trace, mark.1.waitedMs mark.2 < 2 ^ 59)
    (caller : Nat) (choice : Choice) (operation : Operation) :
    expects (dating.ghost caller system.trace) operation
      (system.world.perform choice operation).1 := by
  have marked := Run.marked run
  cases operation with
  | loadMatchedAt player =>
      refine ⟨?_, ?_⟩
      · intro instant written
        exact waits (player, instant) (marked.written written)
      · intro dated
        obtain ⟨instant, listed⟩ := mark_of_dated dated
        exact (marked.kept listed).2
  | primaryIter =>
      refine ⟨?_, trivial⟩
      intro player member
      have listed := (choice.walk_perm _).mem_iff.mp member
      obtain ⟨id, found⟩ := Primary.mem_players.mp listed
      exact Run.rated_of_primary run found
  | indexRange lower upper =>
      refine ⟨?_, trivial⟩
      intro player member
      obtain ⟨key, found, _⟩ := mem_indexRange.mp member
      exact (Run.sound run).indexed found
  | _ => exact ⟨trivial, trivial⟩

end Runs

/-- Calls that have come equally far. -/
abbrev CheckedCall.Agrees (call : CheckedCall) (call' : SystemCall) : Prop :=
  call.request = call'.request ∧
    call.program.returned? = call'.program.returned?.map .ok

section Starting

variable {calls : List CheckedCall} {calls' : List SystemCall}
  (alike : List.Forall₂ CheckedCall.Agrees calls calls')
include alike

theorem workerState_checked (workerId : Nat) :
    CheckedSystem.workerState workerId calls = workerState workerId calls' := by
  unfold CheckedSystem.workerState workerState
  generalize some WorkerState.new = state
  induction alike generalizing state with
  | nil => rfl
  | cons first _ induction =>
      rw [List.foldl_cons, List.foldl_cons]
      rename_i call call' _ _ _
      obtain ⟨request, program⟩ := call
      obtain ⟨request', program'⟩ := call'
      obtain ⟨rfl, returned⟩ := first
      rw [induction]
      congr 1
      cases program with
      | perform operation next =>
          cases program' with
          | perform operation' next' => rfl
          | pure response => cases returned
      | pure outcome =>
          cases program' with
          | perform operation' next' => cases returned
          | pure response =>
              cases returned
              cases response <;> rfl

theorem reaperIdle_checked :
    CheckedSystem.reaperIdle calls = reaperIdle calls' := by
  unfold CheckedSystem.reaperIdle reaperIdle
  induction alike with
  | nil => rfl
  | cons first _ induction =>
      rw [List.all_cons, List.all_cons, induction, first.1, first.2,
        Option.isSome_map]

end Starting

/-- The plain service does what the checked one does. -/
structure InStep (config : Config) (clock : Clock) (checked : CheckedSystem)
    (plain : System) : Prop where
  run : Run config clock .free plain
  mirrors : Pool.Mirrors dating expects (fun _ => ()) (fun _ _ _ => True)
    checked plain

namespace InStep

variable {config : Config} {clock : Clock} {checked : CheckedSystem}
  {plain : System}

theorem new : InStep config clock (.new clock) (.new clock) where
  run := .start
  mirrors := by
    refine ⟨rfl, rfl, ?_⟩
    intro caller
    exact .none

theorem program (inStep : InStep config clock checked plain)
    (request : Request) :
    Option.Rel (fun task task' => Passes [] task task' fun _ _ => True)
      (checked.program config request) (plain.program config request) := by
  have alike := inStep.mirrors.agrees.calls
  cases request with
  | enqueue id skillRating =>
      apply Option.Rel.some
      apply passes_lift
      exact (MatchmakerCore.undated_enqueue id skillRating).finding.map
        fun _ _ _ => trivial
  | cancel id =>
      apply Option.Rel.some
      apply passes_lift
      exact (MatchmakerCore.undated_cancel id).finding.map
        fun _ _ _ => trivial
  | attemptMatch workerId =>
      simp only [CheckedSystem.program, System.program]
      rw [workerState_checked alike]
      cases workerState workerId plain.calls with
      | none => exact .none
      | some state =>
          apply Option.Rel.some
          exact (Checked.attemptMatch_passes _ state).map fun _ _ _ => trivial
  | reaperTick =>
      simp only [CheckedSystem.program, System.program]
      rw [reaperIdle_checked alike]
      split
      · apply Option.Rel.some
        apply passes_lift
        exact (undated_reaperTick _).finding.map fun _ _ _ => trivial
      · exact .none

theorem step (inStep : InStep config clock checked plain) {action : Action}
    {checked' : CheckedSystem}
    (waits : ∀ mark ∈ marks checked.trace, mark.1.waitedMs mark.2 < 2 ^ 59)
    (moved : checked.step config action = some checked') :
    ∃ plain', InStep config clock checked' plain' := by
  have permitted : ∀ action, Discipline.free.permits plain action = true := by
    intro action
    cases action with
    | step caller choice =>
        rw [Discipline.permits]
        cases plain.nextOperation caller with
        | none => rfl
        | some operation => rfl
    | _ => rfl
  cases action with
  | start request =>
      obtain ⟨task, launched, rfl⟩ := Option.map_eq_some_iff.mp moved
      have both := inStep.program request
      rw [launched] at both
      cases launched' : plain.program config request with
      | none =>
          rw [launched'] at both
          cases both
      | some task' =>
          rw [launched'] at both
          cases both with
          | some passes =>
              refine ⟨plain.launch request task', ?_, ?_⟩
              · apply inStep.run.step (permitted (.start request))
                rw [System.step, launched', Option.map_some]
              · exact inStep.mirrors.launch (Run.sound inStep.run).traced passes
  | tick instant unixMs =>
      cases moved
      refine ⟨{ plain with world := plain.world.advanceClock instant unixMs },
        ?_, ?_⟩
      · exact inStep.run.step (permitted (.tick instant unixMs)) rfl
      · refine ⟨?_, inStep.mirrors.trace, inStep.mirrors.calls⟩
        rw [inStep.mirrors.world]
  | step caller choice =>
      rw [inStep.mirrors.trace] at waits
      have both := @Pool.Mirrors.advance _ _ _ _ _ _ _ _ _ _ _ caller
        inStep.mirrors choice (Run.expects inStep.run waits caller choice)
      rw [show checked.advance caller choice = some checked' from moved] at both
      cases moved' : plain.advance caller choice with
      | none =>
          rw [moved'] at both
          cases both
      | some plain' =>
          rw [moved'] at both
          cases both with
          | some mirrors =>
              refine ⟨plain', ?_, mirrors⟩
              exact inStep.run.step (permitted (.step caller choice)) moved'

end InStep

theorem CheckedSystem.marks_step {config : Config} {action : Action}
    {checked checked' : CheckedSystem}
    (moved : checked.step config action = some checked') :
    marks checked.trace ⊆ marks checked'.trace := by
  cases action with
  | start request =>
      obtain ⟨task, _, rfl⟩ := Option.map_eq_some_iff.mp moved
      exact List.Subset.refl _
  | tick instant unixMs =>
      cases moved
      exact List.Subset.refl _
  | step caller choice =>
      obtain ⟨request, operation, next, _, rfl⟩ := Pool.advance_cases moved
      exact ((List.sublist_cons_self ..).filterMap markOf).subset

theorem CheckedRun.inStep {config : Config} {clock : Clock}
    {checked : CheckedSystem} (run : CheckedRun config clock checked)
    (waits : ∀ mark ∈ marks checked.trace,
      mark.1.waitedMs mark.2 < 2 ^ 59) :
    ∃ plain, InStep config clock checked plain := by
  induction run with
  | start => exact ⟨_, .new⟩
  | step before _ moved induction =>
      have waits' := fun mark listed =>
        waits mark (CheckedSystem.marks_step moved listed)
      obtain ⟨plain, inStep⟩ := induction waits'
      exact inStep.step waits' moved

/-- No call has panicked, and the service without checks does the same. -/
theorem attempts_never_panic {config : Config} {clock : Clock}
    {system : CheckedSystem} (run : CheckedRun config clock system)
    (waits : ∀ mark ∈ marks system.trace, mark.1.waitedMs mark.2 < 2 ^ 59) :
    (∀ call ∈ system.calls, ∀ panic : Panic,
      call.program ≠ .pure (.error panic)) ∧
      ∃ plain : System, Run config clock .free plain ∧
        system.Agrees plain := by
  obtain ⟨plain, inStep⟩ := run.inStep waits
  exact ⟨fun call member => inStep.mirrors.not_failed member,
    plain, inStep.run, inStep.mirrors.agrees⟩

theorem exists_checkedRun {config : Config} {clock : Clock}
    {check : CheckedSystem → Bool} (actions : List Action)
    (ran : (schedule (CheckedSystem.step config) (fun _ _ => true)
      (.new clock) actions).any check = true) :
    ∃ system, CheckedRun config clock system ∧ check system = true := by
  cases played : schedule (CheckedSystem.step config) (fun _ _ => true)
      (.new clock) actions with
  | none =>
      rw [played] at ran
      cases ran
  | some system =>
      rw [played] at ran
      exact ⟨system, Reachable.schedule (fun _ _ _ => trivial) .start played,
        ran⟩

set_option maxRecDepth 100000 in
theorem attempts_never_panic_match :
    ∃ system, CheckedRun .default ⟨0, 1000⟩ system ∧
      (publications system.trace).length = 1 ∧
      ∀ call ∈ system.calls, ∀ panic : Panic,
        call.program ≠ .pure (.error panic) := by
  obtain ⟨system, run, check⟩ : ∃ system,
      CheckedRun .default ⟨0, 1000⟩ system ∧
        decide ((publications system.trace).length = 1 ∧
          ∀ mark ∈ marks system.trace,
            mark.1.waitedMs mark.2 < 2 ^ 59) = true := by
    apply exists_checkedRun (arrivals 10 1500 ++ .tick 2000000000 2000 ::
      .start (.attemptMatch 1) :: turns 10 147)
    decide +kernel
  obtain ⟨published, waits⟩ := of_decide_eq_true check
  exact ⟨system, run, published, (attempts_never_panic run waits).1⟩

end Matchmaker
