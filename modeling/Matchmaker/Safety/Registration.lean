import Matchmaker.Protocol.Registry

namespace Matchmaker

open Concurrent

/-! What becomes of a registration. The duplicate check and the insertion are
separate steps, and a removal goes by the identifier alone. -/

/-- Somebody has matched or cancelled the player. -/
def Settled (player : Player) (trace : Trace) : Prop :=
  ∃ transfer ∈ transfers trace, transfer.player = player ∧
    (transfer.site = .markMatched ∨ transfer.site = .tryEvict)

instance (player : Player) (trace : Trace) :
    Decidable (Settled player trace) :=
  inferInstanceAs (Decidable (∃ transfer ∈ transfers trace,
    transfer.player = player ∧
      (transfer.site = .markMatched ∨ transfer.site = .tryEvict)))

theorem Settles.settled {caller : Nat} {player : Player} {trace : Trace}
    (settles : Settles caller player trace) : Settled player trace := by
  rcases settles with member | member
  · exact ⟨_, member, rfl, .inl rfl⟩
  · exact ⟨_, member, rfl, .inr rfl⟩

/-- The player is registered, and neither matched nor cancelled so far. -/
abbrev Live (player : Player) (trace : Trace) : Prop :=
  player ∈ stored trace ∧ ¬ Settled player trace

/-- An enqueue that has returned has inserted a player of its own, or reports
why it did not. -/
def Answered (caller : Nat) (id : Uuid) (skillRating : Nat) (trace : Trace) :
    Except EnqueueError Nat → Prop
  | .ok _ => ∃ player, enrolmentOf caller trace = .indexed player ∧
      player ∈ stored trace ∧ player.id = id ∧
      player.skillRating = skillRating
  | .error error => enrolmentOf caller trace = .none ∧
      (skillRating ≤ maxSkillRating → error = .alreadyQueued id)

structure RegistrationKept (system : System) : Prop where
  /-- A live player is the one its identifier leads to. -/
  kept : ∀ player, Live player system.trace →
    system.world.primary.lookup player.id = some player
  /-- Of several enqueues of one identifier, one at most has a live player. -/
  single : ∀ first second player player', first ≠ second →
    enrolmentOf first system.trace = .indexed player →
    enrolmentOf second system.trace = .indexed player' →
    player.id = player'.id →
    ¬ (Live player system.trace ∧ Live player' system.trace)
  outcome : ∀ (caller : Nat) (id : Uuid) (skillRating : Nat)
    (outcome : Except EnqueueError Nat),
    system.calls[caller]? =
      some ⟨.enqueue id skillRating, .pure (.enqueue outcome)⟩ →
    Answered caller id skillRating system.trace outcome
  /-- A removal takes out a player that its caller has matched or evicted. -/
  removes : ∀ (caller : Nat) (id : Uuid) (result : Option Player),
    ⟨caller, .primaryRemove id, result⟩ ∈ system.trace →
    ∃ player, result = some player ∧ player.id = id ∧
      Settles caller player system.trace

section Run

variable {config : Config} {clock : Clock} {system : System}

/-- A player who is neither waiting nor claimed was matched or cancelled. -/
theorem Run.taken {discipline : Discipline}
    (run : Run config clock discipline system) {player : Player}
    (left : (system.world.cells player).state ≠ .waiting) :
    (system.world.cells player).state = .claimed ∨
      Settled player system.trace := by
  obtain ⟨⟨caller, other, site⟩, member, rfl, reached⟩ :=
    Run.transfer_of_state run rfl left
  cases site with
  | tryClaim => exact .inl reached.symm
  | markMatched => exact .inr ⟨_, member, rfl, .inl rfl⟩
  | tryEvict => exact .inr ⟨_, member, rfl, .inr rfl⟩
  | releaseClaim => exact absurd reached.symm left
  | reaperReset => exact absurd reached.symm left

theorem Run.keptClaims_of_left {discipline : Discipline}
    (run : Run config clock (.both .noResets discipline) system) :
    Run config clock (.both .keptClaims discipline) system :=
  Run.mono run (fun _ _ started => started) fun before performing =>
    Bool.and_eq_true_iff.mpr ⟨Run.keeps_claims (Run.left before) _ _,
      performing.right.permitted⟩

theorem Run.live_kept
    (run : Run config clock (.both .keptClaims .absentInserts) system)
    {player : Player} (live : Live player system.trace) :
    system.world.primary.lookup player.id = some player := by
  refine (Run.lookup_iff (Run.right run)).mpr ⟨rfl, live.1, ?_⟩
  intro taken
  obtain ⟨⟨caller, _⟩, removal, rfl⟩ := List.mem_map.mp taken
  exact live.2 ((Run.removals run).done removal).settled

theorem Run.enqueue_outcome {discipline : Discipline}
    (run : Run config clock discipline system) {caller : Nat} {id : Uuid}
    {skillRating : Nat} {outcome : Except EnqueueError Nat}
    (returned : system.calls[caller]? =
      some ⟨.enqueue id skillRating, .pure (.enqueue outcome)⟩) :
    Answered caller id skillRating system.trace outcome := by
  have ended := ((Run.sound run).follows.returned returned).outcome
  cases outcome with
  | ok size =>
      obtain ⟨player, has, sameId, sameRating⟩ := ended
      exact ⟨player, has,
        (Run.enrolled run).stored.mpr ⟨caller, .inr has⟩, sameId, sameRating⟩
  | error error =>
      cases error with
      | alreadyQueued other =>
          obtain ⟨none, same, _⟩ := ended
          exact ⟨none, fun _ => by rw [same]⟩
      | invalidSkillRating rating limit =>
          obtain ⟨none, rfl, rfl, above⟩ := ended
          exact ⟨none, fun within => absurd above (by omega)⟩

theorem Run.removes_settled
    (run : Run config clock (.both .keptClaims .absentInserts) system)
    {caller : Nat} {id : Uuid} {result : Option Player}
    (member : ⟨caller, .primaryRemove id, result⟩ ∈ system.trace) :
    ∃ player, result = some player ∧ player.id = id ∧
      Settles caller player system.trace := by
  refine Run.invariant run (fun _ trace =>
    ⟨caller, .primaryRemove id, result⟩ ∈ trace →
      ∃ player, result = some player ∧ player.id = id ∧
        Settles caller player trace) ?_ (fun _ _ holds => holds) ?_ member
  · intro none
    cases none
  · intro system mover request operation choice run performing holds member
    rcases List.mem_cons.mp member with now | earlier
    · obtain rfl : caller = mover := congrArg Event.caller now
      obtain rfl : _ = operation := congrArg Event.operation now
      have removals := Run.removals run
      obtain ⟨player, rest, pending, same, found⟩ :=
        removals.finds run performing
      refine ⟨player, ?_, same, (removals.owed ?_).1.cons _⟩
      · exact (eq_of_heq (Event.mk.inj now).2.2).trans found
      · rw [pending]
        exact List.mem_cons_self ..
    · obtain ⟨player, found, same, settles⟩ := holds earlier
      exact ⟨player, found, same, settles.cons _⟩

/-- No registration is lost, duplicated or removed for another one, as long as
every insertion into the primary store finds the identifier absent. -/
theorem registration_kept
    (run : Run config clock (.both .noResets .absentInserts) system) :
    RegistrationKept system := by
  have run := Run.keptClaims_of_left run
  refine ⟨fun _ live => Run.live_kept run live, ?_,
    fun _ _ _ _ returned => Run.enqueue_outcome run returned,
    fun _ _ _ member => Run.removes_settled run member⟩
  intro first second player player' different has has' same given
  obtain ⟨live, live'⟩ := given
  have found := Run.live_kept run live
  rw [same, Run.live_kept run live'] at found
  cases found
  exact different ((Run.enrolled run).apart (by rw [has]; rfl)
    (by rw [has']; rfl))

end Run

/-- Two enqueues of one identifier both find it absent, then both insert. -/
def racingEnqueues : List Action :=
  [.start (.enqueue 1 1500), .start (.enqueue 1 1600)] ++
    turns 0 1 ++ turns 1 1 ++ turns 0 7 ++ turns 1 7

def System.accepted (system : System) (caller : Nat) : Bool :=
  match system.calls[caller]? with
  | some ⟨_, .pure (.enqueue (.ok _))⟩ => true
  | _ => false

set_option maxRecDepth 100000 in
theorem exists_registration_lost :
    ∃ system, Run .default ⟨0, 1000⟩ .noResets system ∧
      ∃ caller player, system.accepted caller = true ∧
        enrolmentOf caller system.trace = .indexed player ∧
        Live player system.trace ∧
        system.world.primary.lookup player.id ≠ some player := by
  obtain ⟨system, run, lost⟩ : ∃ system,
      Run .default ⟨0, 1000⟩ .noResets system ∧
        decide (∃ player ∈ stored system.trace,
          system.accepted 0 = true ∧
          enrolmentOf 0 system.trace = .indexed player ∧
          Live player system.trace ∧
          system.world.primary.lookup player.id ≠ some player) = true := by
    apply exists_run_of_play racingEnqueues
    decide +kernel
  obtain ⟨player, _, lost⟩ := of_decide_eq_true lost
  exact ⟨system, run, 0, player, lost⟩

set_option maxRecDepth 100000 in
theorem registration_kept_duplicate :
    ∃ system, Run .default ⟨0, 1000⟩ (.both .noResets .absentInserts) system ∧
      RegistrationKept system ∧
      system.world.primary.players.length = 10 := by
  obtain ⟨system, run, length⟩ : ∃ system,
      Run .default ⟨0, 1000⟩ (.both .noResets .absentInserts) system ∧
        decide (system.world.primary.players.length = 10) = true := by
    apply exists_run_of_play (arrivals 10 1500 ++
      .start (.enqueue 1 1600) :: turns 10 1)
    decide +kernel
  exact ⟨system, run, registration_kept run, of_decide_eq_true length⟩

end Matchmaker
