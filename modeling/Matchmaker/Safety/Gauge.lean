import Matchmaker.Protocol.Books
import Matchmaker.Protocol.Overlap

namespace Matchmaker

open Concurrent

/-! The gauge counts players twice over: an enqueue adds its player after it
has put it into the pool, and a match or a cancel takes players off. -/

/-- The players that enqueues have added to the gauge. -/
def counted : Trace → List Player
  | [] => []
  | event :: trace =>
      match event.operation with
      | .addQueueSize _ => (tallyOf event.caller trace).indexed ++ counted trace
      | _ => counted trace

/-- The players that matches and cancels have taken off the gauge. -/
def discounted : Trace → List Player
  | [] => []
  | event :: trace =>
      match event.operation with
      | .addQueueSize _ =>
          (tallyOf event.caller trace).settled ++ discounted trace
      | _ => discounted trace

/-- A call takes players off the gauge only after they were added to it. -/
def Discipline.countedFirst : Discipline where
  starts := fun _ _ => true
  performs := fun system caller operation =>
    match operation with
    | .addQueueSize _ => (tallyOf caller system.trace).settled.all fun player =>
        player ∈ counted system.trace
    | _ => true

section Calls

variable {config : Config} {clock : Clock} {discipline : Discipline}
  {system : System} {caller other : Nat} {request : Request}
  {operation : Operation}

theorem tallyOf_other (distinct : caller ≠ other) (choice : Choice) :
    tallyOf other (system.eventOf caller choice operation :: system.trace) =
      tallyOf other system.trace :=
  Contract.ghost_other distinct _ _ _

theorem tallyOf_self (choice : Choice) :
    tallyOf caller (system.eventOf caller choice operation :: system.trace) =
      (tallyOf caller system.trace).next operation
        (system.world.perform choice operation).1 :=
  Contract.ghost_self ..

theorem Performing.entered
    (performing : Performing config discipline system caller request operation)
    (run : Run config clock discipline system) :
    operation.Entered (tallyOf caller system.trace) := by
  obtain ⟨next, found⟩ := performing.next
  exact (Run.follows_ledger run caller _ found).1

theorem settled_subset (choice : Choice) :
    (tallyOf other system.trace).settled ⊆ (tallyOf other
      (system.eventOf caller choice operation :: system.trace)).settled := by
  by_cases same : caller = other
  · subst same
    rw [tallyOf_self]
    intro player member
    simp only [Tally.next]
    split
    · exact List.mem_append_left _ member
    · exact List.mem_append_left _ member
    · exact member
  · rw [tallyOf_other same]
    exact List.Subset.refl _

theorem Tally.settled_next (tally : Tally) (result : operation.Result) :
    (tally.next operation result).settled = tally.settled ∨
      ∃ player site, operation = .exchange player site ∧
        (site = .markMatched ∨ site = .tryEvict ∧ result ≍ true) ∧
        (tally.next operation result).settled =
          tally.settled ++ [player] := by
  cases operation with
  | exchange player site =>
      cases site with
      | markMatched => exact .inr ⟨player, _, rfl, .inl rfl, rfl⟩
      | tryEvict =>
          cases result with
          | true => exact .inr ⟨player, _, rfl, .inr ⟨rfl, .rfl⟩, rfl⟩
          | false => exact .inl rfl
      | _ => exact .inl rfl
  | _ => exact .inl rfl

end Calls

section Run

variable {config : Config} {clock : Clock} {system : System}

/-- The players of a call's tally are those it has settled. -/
structure Tallied (caller : Nat) (trace : Trace) : Prop where
  settles : ∀ player ∈ (tallyOf caller trace).settled,
    Settles caller player trace
  nodup : (tallyOf caller trace).settled.Nodup

theorem Tallied.keep {caller : Nat} {trace : Trace} {event : Event memory}
    (tallied : Tallied caller trace)
    (kept : (tallyOf caller (event :: trace)).settled =
      (tallyOf caller trace).settled) : Tallied caller (event :: trace) where
  settles := by
    rw [kept]
    exact fun player member => (tallied.settles player member).cons event
  nodup := by
    rw [kept]
    exact tallied.nodup

theorem Run.tallied (run : Run config clock .noResets system) (caller : Nat) :
    Tallied caller system.trace := by
  apply Run.invariant run (fun _ trace => Tallied caller trace)
    ⟨nofun, .nil⟩ (fun _ _ holds => holds)
  intro system mover request operation choice run performing holds
  by_cases same : mover = caller
  · subst same
    rcases (tallyOf mover system.trace).settled_next
      (system.world.perform choice operation).1 with
      kept | ⟨player, site, rfl, final, added⟩
    · exact holds.keep (by rw [tallyOf_self, kept])
    · have success : (system.world.exchange player site).1 = true := by
        rcases final with rfl | ⟨_, success⟩
        · exact Run.mark_succeeds (Run.keptClaims_of_noResets run)
            ⟨performing.next, performing.allowed, Run.keeps_claims run _ _⟩
        · exact eq_of_heq success
      have settles : Settles mover player (system.eventOf mover choice
          (.exchange player site) :: system.trace) := by
        have last := @lastTransfer_disturbed _ mover _ _ success choice
        rcases final with rfl | ⟨rfl, _⟩
        · exact .inl (lastTransfer_mem last)
        · exact .inr (lastTransfer_mem last)
      have fresh : player ∉ (tallyOf mover system.trace).settled :=
        fun member => Run.unsettled run success (holds.settles player member)
      refine ⟨?_, ?_⟩
      · intro other member
        rw [tallyOf_self, added] at member
        rcases List.mem_append.mp member with earlier | single
        · exact (holds.settles other earlier).cons _
        · rw [List.mem_singleton.mp single]
          exact settles
      · rw [tallyOf_self, added]
        exact holds.nodup.append (List.nodup_singleton player)
          (List.disjoint_singleton.mpr fresh)
  · exact holds.keep (by rw [tallyOf_other same])

/-- The gauge tells how many more players were added to it than taken off, and
those that were taken off are all different and were added before. -/
structure Metered (core : Core) (trace : Trace) : Prop where
  gauge : core.metrics.currentQueueSize =
    (counted trace).length - (discounted trace).length
  entered : ∀ player ∈ discounted trace, ∃ caller,
    player ∈ (tallyOf caller trace).settled ∧
      (tallyOf caller trace).metrics.currentQueueSize ≠ 0
  distinct : (discounted trace).Nodup
  covered : discounted trace ⊆ counted trace

theorem Metered.nonneg {core : Core} {trace : Trace}
    (metered : Metered core trace) : 0 ≤ core.metrics.currentQueueSize := by
  have fewer := (metered.distinct.subperm metered.covered).length_le
  rw [metered.gauge]
  omega

theorem Performing.entered_once {discipline : Discipline} {caller other : Nat}
    {request : Request} {operation : Operation} {choice : Choice}
    (performing : Performing config discipline system caller request operation)
    (run : Run config clock discipline system)
    (nonzero : (tallyOf other system.trace).metrics.currentQueueSize ≠ 0) :
    (tallyOf other (system.eventOf caller choice operation ::
      system.trace)).metrics.currentQueueSize ≠ 0 := by
  by_cases same : caller = other
  · subst same
    have once := performing.entered run
    rw [tallyOf_self]
    cases operation with
    | addQueueSize amount => exact absurd once.2.1 nonzero
    | fetchAdd counter amount =>
        cases counter <;> exact nonzero
    | exchange player site =>
        generalize (system.world.perform choice
          (.exchange player site)).1 = success
        cases site <;> cases success <;> exact nonzero
    | _ => exact nonzero
  · rw [tallyOf_other same]
    exact nonzero

theorem Metered.keep {discipline : Discipline} {caller : Nat}
    {request : Request} {operation : Operation} {choice : Choice}
    (metered : Metered system.world system.trace)
    (performing : Performing config discipline system caller request operation)
    (run : Run config clock discipline system)
    (quiet : ∀ amount, operation ≠ .addQueueSize amount) :
    Metered (system.world.perform choice operation).2
      (system.eventOf caller choice operation :: system.trace) := by
  have sameCounted : counted (system.eventOf caller choice operation ::
      system.trace) = counted system.trace := by
    cases operation with
    | addQueueSize amount => exact absurd rfl (quiet amount)
    | _ => rfl
  have sameDiscounted : discounted (system.eventOf caller choice operation ::
      system.trace) = discounted system.trace := by
    cases operation with
    | addQueueSize amount => exact absurd rfl (quiet amount)
    | _ => rfl
  refine ⟨?_, ?_, ?_, ?_⟩
  · rw [sameCounted, sameDiscounted, ← metered.gauge]
    cases operation with
    | addQueueSize amount => exact absurd rfl (quiet amount)
    | fetchAdd counter amount => cases counter <;> rfl
    | exchange player site =>
        simp only [Core.perform, Core.exchange]
        split <;> rfl
    | _ => rfl
  · rw [sameDiscounted]
    intro player member
    obtain ⟨other, settled, nonzero⟩ := metered.entered player member
    exact ⟨other, settled_subset choice settled,
      performing.entered_once run nonzero⟩
  · rw [sameDiscounted]
    exact metered.distinct
  · rw [sameCounted, sameDiscounted]
    exact metered.covered

theorem Run.metered
    (run : Run config clock (.both .noResets .countedFirst) system) :
    Metered system.world system.trace := by
  apply Run.invariant run Metered
    ⟨rfl, nofun, .nil, List.Subset.refl _⟩
    (fun _ _ holds => ⟨holds.gauge, holds.entered, holds.distinct,
      holds.covered⟩)
  intro system caller request operation choice run performing metered
  cases operation with
  | addQueueSize amount =>
      obtain ⟨nonzero, unentered, change⟩ := performing.entered run
      have tallied := Run.tallied (Run.left run)
      have before := List.all_eq_true.mp performing.right.permitted
      refine ⟨?_, ?_, ?_, ?_⟩
      · have gauge := metered.gauge
        show system.world.metrics.currentQueueSize + amount =
          (((tallyOf caller system.trace).indexed ++
            counted system.trace).length : Int) -
          ((tallyOf caller system.trace).settled ++
            discounted system.trace).length
        rw [List.length_append, List.length_append]
        omega
      · intro player member
        rcases List.mem_append.mp member with own | earlier
        · refine ⟨caller, settled_subset choice own, ?_⟩
          rw [tallyOf_self]
          show (tallyOf caller system.trace).metrics.currentQueueSize +
            amount ≠ 0
          omega
        · obtain ⟨other, settled, other_nonzero⟩ :=
            metered.entered player earlier
          exact ⟨other, settled_subset choice settled,
            performing.entered_once run other_nonzero⟩
      · apply (tallied caller).nodup.append metered.distinct
        intro player own earlier
        obtain ⟨other, settled, entered⟩ := metered.entered player earlier
        obtain rfl := Run.settles_unique run
          ((tallied caller).settles player own)
          ((tallied other).settles player settled)
        exact entered unentered
      · intro player member
        rcases List.mem_append.mp member with own | earlier
        · exact List.mem_append_right _ (of_decide_eq_true (before player own))
        · exact List.mem_append_right _ (metered.covered earlier)
  | _ => exact metered.keep performing run (by simp)

/-- The gauge is never negative, provided that no player is taken off before
it was added. -/
theorem gauge_nonneg
    (run : Run config clock (.both .noResets .countedFirst) system) :
    0 ≤ system.world.metrics.currentQueueSize :=
  (Run.metered run).nonneg

end Run

set_option maxRecDepth 100000 in
theorem gauge_nonneg_match :
    ∃ system, Run .default ⟨0, 1000⟩ (.both .noResets .countedFirst) system ∧
      0 ≤ system.world.metrics.currentQueueSize ∧
      (discounted system.trace).length = 11 := by
  obtain ⟨system, run, check⟩ : ∃ system,
      Run .default ⟨0, 1000⟩ (.both .noResets .countedFirst) system ∧
        decide ((discounted system.trace).length = 11) = true := by
    apply exists_run_of_play (arrivals 11 1500 ++
      .start (.attemptMatch 1) :: turns 11 150 ++
      .start (.cancel 11) :: turns 12 6)
    decide +kernel
  exact ⟨system, run, gauge_nonneg run, of_decide_eq_true check⟩

set_option maxRecDepth 100000 in
theorem exists_gauge_negative :
    ∃ system, Run .default ⟨0, 1000⟩ (.both .noResets .distinctIds) system ∧
      system.world.metrics.currentQueueSize = -1 := by
  obtain ⟨system, run, check⟩ : ∃ system,
      Run .default ⟨0, 1000⟩ (.both .noResets .distinctIds) system ∧
        decide (system.world.metrics.currentQueueSize = -1) = true := by
    apply exists_run_of_play (.start (.enqueue 1 1500) :: turns 0 5 ++
      .start (.cancel 1) :: turns 1 5)
    decide +kernel
  exact ⟨system, run, of_decide_eq_true check⟩

end Matchmaker
