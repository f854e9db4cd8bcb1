import Matchmaker.Protocol.Ownership

namespace Matchmaker

open Concurrent

/-! The primary store: who is in it, and who takes players out of it. -/

/-- A player is put into the primary store only where nobody has its
identifier. -/
def Discipline.absentInserts : Discipline where
  starts := fun _ _ => true
  performs := fun system _ operation =>
    match operation with
    | .primaryInsert player => (system.world.primary.lookup player.id).isNone
    | _ => true

/-- The players that were taken out of the primary store. -/
def gone (trace : Trace) : List Player :=
  (removed trace).map (·.2)

section Removed

variable {system : System} {caller : Nat} {id : Uuid} {choice : Choice}

theorem removed_cons_none (found : system.world.primary.lookup id = none) :
    removed (system.eventOf caller choice (.primaryRemove id) ::
      system.trace) = removed system.trace := by
  simp only [System.eventOf, Core.perform, found]
  rfl

theorem removed_cons_some {player : Player}
    (found : system.world.primary.lookup id = some player) :
    removed (system.eventOf caller choice (.primaryRemove id) ::
      system.trace) = (caller, player) :: removed system.trace := by
  simp [removed, System.eventOf, Core.perform, found, removedOf]

theorem removed_cons_of_ne {operation : Operation}
    (other : ∀ id, operation ≠ .primaryRemove id) :
    removed (system.eventOf caller choice operation :: system.trace) =
      removed system.trace := by
  cases operation with
  | primaryRemove id => exact absurd rfl (other id)
  | _ => rfl

theorem gone_subset (event : Event memory) (trace : Trace) :
    gone trace ⊆ gone (event :: trace) := by
  apply List.map_subset _
  intro removal member
  cases found : removedOf event with
  | none => rwa [removed, List.filterMap_cons_none found]
  | some first =>
      rw [removed, List.filterMap_cons_some found]
      exact List.mem_cons_of_mem _ member

theorem primary_perform {operation : Operation}
    (noInsert : ∀ player, operation ≠ .primaryInsert player)
    (noRemove : ∀ id, operation ≠ .primaryRemove id) :
    (system.world.perform choice operation).2.primary =
      system.world.primary := by
  cases operation with
  | primaryInsert player => exact absurd rfl (noInsert player)
  | primaryRemove id => exact absurd rfl (noRemove id)
  | exchange player site =>
      simp only [Core.perform, Core.exchange]
      split <;> rfl
  | _ => rfl

end Removed

section Run

variable {config : Config} {clock : Clock} {discipline : Discipline}
  {system : System}

theorem Run.stored_of_gone (run : Run config clock discipline system)
    {player : Player} (member : player ∈ gone system.trace) :
    player ∈ stored system.trace := by
  refine Run.invariant run (fun _ trace => player ∈ gone trace →
    player ∈ stored trace) ?_ (fun _ _ holds => holds) ?_ member
  · intro none
    cases none
  · intro system caller request operation choice run performing holds member
    rw [mem_stored_cons]
    left
    rw [gone] at member
    by_cases removal : ∃ id, operation = .primaryRemove id
    · obtain ⟨id, rfl⟩ := removal
      cases found : system.world.primary.lookup id with
      | none =>
          rw [removed_cons_none found] at member
          exact holds member
      | some first =>
          rw [removed_cons_some found] at member
          rcases List.mem_cons.mp member with rfl | earlier
          · exact Run.stored_of_primary run found
          · exact holds earlier
    · rw [removed_cons_of_ne fun id same => removal ⟨id, same⟩] at member
      exact holds member

theorem Performing.not_stored {caller : Nat} {request : Request}
    {player : Player} (run : Run config clock discipline system)
    (performing : Performing config discipline system caller request
      (.primaryInsert player)) : player ∉ stored system.trace := by
  intro already
  have created : enrolmentOf caller system.trace = .created player :=
    performing.allowed
  have enrolled := Run.enrolled run
  obtain ⟨other, has⟩ := enrolled.stored.mp already
  have same : caller = other := by
    apply enrolled.apart (by rw [created]; rfl)
    rcases has with has | has <;> rw [has] <;> rfl
  rw [← same, created] at has
  rcases has with has | has <;> cases has

/-- Exactly the players that were put into the primary store and not taken out
are found there. -/
theorem Run.lookup_iff (run : Run config clock .absentInserts system)
    {id : Uuid} {player : Player} :
    system.world.primary.lookup id = some player ↔
      player.id = id ∧ player ∈ stored system.trace ∧
        player ∉ gone system.trace := by
  refine Run.invariant run (fun core trace =>
    ∀ id player, core.primary.lookup id = some player ↔
      player.id = id ∧ player ∈ stored trace ∧ player ∉ gone trace)
    ?_ (fun _ _ holds => holds) ?_ id player
  · intro id player
    constructor
    · intro found
      cases found
    · intro given
      obtain ⟨_, none, _⟩ := given
      cases none
  · intro system caller request operation choice run performing holds id player
    rw [mem_stored_cons, gone]
    by_cases insertion : ∃ first, operation = .primaryInsert first
    · obtain ⟨first, rfl⟩ := insertion
      have unstored := performing.not_stored run
      have absent : system.world.primary.lookup first.id = none := by
        simpa [Discipline.absentInserts] using performing.permitted
      rw [removed_cons_of_ne (by simp), ← gone]
      simp only [Core.perform, lookup_insert_eq, Operation.primaryInsert.injEq]
      by_cases here : id = first.id
      · rw [if_pos here]
        constructor
        · intro found
          cases found
          exact ⟨here.symm, .inr rfl, fun taken =>
            unstored (Run.stored_of_gone run taken)⟩
        · rintro ⟨same, earlier | rfl, kept⟩
          · have found := (holds id player).mpr ⟨same, earlier, kept⟩
            rw [here, absent] at found
            cases found
          · rfl
      · rw [if_neg here, holds]
        constructor
        · intro given
          obtain ⟨same, earlier, kept⟩ := given
          exact ⟨same, .inl earlier, kept⟩
        · rintro ⟨same, earlier | rfl, kept⟩
          · exact ⟨same, earlier, kept⟩
          · exact absurd same.symm here
    · have different : operation ≠ .primaryInsert player :=
        fun same => insertion ⟨player, same⟩
      rw [or_iff_left different]
      by_cases removal : ∃ first, operation = .primaryRemove first
      · obtain ⟨first, rfl⟩ := removal
        simp only [Core.perform, lookup_erase_eq]
        cases found : system.world.primary.lookup first with
        | none =>
            rw [removed_cons_none found, ← gone, ← holds]
            split
            · rename_i same
              rw [same, found]
            · rfl
        | some taken =>
            rw [removed_cons_some found, List.map_cons, List.mem_cons,
              not_or, ← gone]
            have sameId := ((holds first taken).mp found).1
            split
            · rename_i here
              constructor
              · intro none
                cases none
              · intro given
                obtain ⟨same, earlier, distinct, kept⟩ := given
                have present := (holds id player).mpr ⟨same, earlier, kept⟩
                rw [here, found] at present
                cases present
                exact absurd rfl distinct
            · rename_i away
              rw [holds]
              constructor
              · intro given
                obtain ⟨same, earlier, kept⟩ := given
                refine ⟨same, earlier, ?_, kept⟩
                rintro rfl
                exact away (same.symm.trans sameId)
              · intro given
                obtain ⟨same, earlier, _, kept⟩ := given
                exact ⟨same, earlier, kept⟩
      · rw [primary_perform (fun first same => insertion ⟨first, same⟩)
          (fun first same => removal ⟨first, same⟩),
          removed_cons_of_ne fun first same => removal ⟨first, same⟩]
        exact holds id player

end Run

/-- The call has matched or evicted the player. -/
def Settles (caller : Nat) (player : Player) (trace : Trace) : Prop :=
  ⟨caller, player, .markMatched⟩ ∈ transfers trace ∨
    ⟨caller, player, .tryEvict⟩ ∈ transfers trace

theorem Settles.cons {caller : Nat} {player : Player} {trace : Trace}
    (settles : Settles caller player trace) (event : Event memory) :
    Settles caller player (event :: trace) :=
  settles.imp (fun member => transfers_subset event trace member)
    fun member => transfers_subset event trace member

section Run

variable {config : Config} {clock : Clock} {discipline : Discipline}
  {system : System}

theorem Run.settles_unique (run : Run config clock discipline system)
    {caller other : Nat} {player : Player}
    (settles : Settles caller player system.trace)
    (settles' : Settles other player system.trace) : caller = other := by
  rcases settles with first | first <;> rcases settles' with second | second
  · exact congrArg Transfer.caller
      (Run.final_unique run first second (.inl rfl) (.inl rfl) rfl)
  · exact congrArg Transfer.caller
      (Run.final_unique run first second (.inl rfl) (.inr rfl) rfl)
  · exact congrArg Transfer.caller
      (Run.final_unique run first second (.inr rfl) (.inl rfl) rfl)
  · exact congrArg Transfer.caller
      (Run.final_unique run first second (.inr rfl) (.inr rfl) rfl)

theorem Run.unsettled (run : Run config clock discipline system)
    {caller : Nat} {player : Player} {site : Exchange}
    (success : (system.world.exchange player site).1 = true) :
    ¬ Settles caller player system.trace := by
  intro settles
  have current := exchange_succeeds_iff.mp success
  rw [Run.state run] at current
  rcases settles with member | member
  · rw [Run.final run member (.inl rfl)] at current
    cases site <;> cases current
  · rw [Run.final run member (.inr rfl)] at current
    cases site <;> cases current

/-- What a call has still to take out of the pool. -/
abbrev pendingOf (caller : Nat) (trace : Trace) : List Player :=
  (progressOf caller trace).removal.pending

/-- Calls remove the players they have settled, each of them once. -/
structure Removals (trace : Trace) : Prop where
  nodup : ∀ caller, (pendingOf caller trace).Nodup
  owed : ∀ {caller player}, player ∈ pendingOf caller trace →
    Settles caller player trace ∧ player ∉ gone trace
  done : ∀ {caller player}, (caller, player) ∈ removed trace →
    Settles caller player trace

theorem pendingOf_other {caller other : Nat} {operation : Operation}
    {choice : Choice} (distinct : caller ≠ other) :
    pendingOf other
        (system.eventOf caller choice operation :: system.trace) =
      pendingOf other system.trace := by
  rw [pendingOf, progressOf_other distinct]

theorem Removals.settle {caller : Nat} {player : Player} {site : Exchange}
    {choice : Choice} (run : Run config clock discipline system)
    (removals : Removals system.trace)
    (success : (system.world.exchange player site).1 = true)
    (final : site = .markMatched ∨ site = .tryEvict)
    (pending : pendingOf caller (system.eventOf caller choice
        (.exchange player site) :: system.trace) =
      pendingOf caller system.trace ++ [player]) :
    Removals (system.eventOf caller choice (.exchange player site) ::
      system.trace) := by
  have unsettled : ∀ other, ¬ Settles other player system.trace :=
    fun other => Run.unsettled run success
  have settled : Settles caller player (system.eventOf caller choice
      (.exchange player site) :: system.trace) := by
    rcases final with rfl | rfl
    · exact .inl (lastTransfer_mem (lastTransfer_disturbed success choice))
    · exact .inr (lastTransfer_mem (lastTransfer_disturbed success choice))
  have same : gone (system.eventOf caller choice (.exchange player site) ::
      system.trace) = gone system.trace := by
    rw [gone, removed_cons_of_ne (by simp), gone]
  refine ⟨?_, ?_, ?_⟩
  · intro other
    by_cases own : caller = other
    · subst own
      rw [pending, List.nodup_append]
      refine ⟨removals.nodup caller, List.nodup_singleton _, ?_⟩
      intro first member second single equality
      rw [List.mem_singleton.mp single] at equality
      subst equality
      exact unsettled caller (removals.owed member).1
    · rw [pendingOf_other own]
      exact removals.nodup other
  · intro other owed member
    rw [same]
    by_cases own : caller = other
    · subst own
      rw [pending] at member
      rcases List.mem_append.mp member with earlier | single
      · exact ⟨(removals.owed earlier).1.cons _, (removals.owed earlier).2⟩
      · rw [List.mem_singleton.mp single]
        refine ⟨settled, ?_⟩
        intro taken
        obtain ⟨⟨remover, _⟩, removal, rfl⟩ := List.mem_map.mp taken
        exact unsettled remover (removals.done removal)
    · rw [pendingOf_other own] at member
      exact ⟨(removals.owed member).1.cons _, (removals.owed member).2⟩
  · intro other taken member
    rw [removed_cons_of_ne (by simp)] at member
    exact (removals.done member).cons _

theorem Removals.keep {caller : Nat} {operation : Operation} {choice : Choice}
    (removals : Removals system.trace)
    (pending : pendingOf caller (system.eventOf caller choice operation ::
      system.trace) = pendingOf caller system.trace)
    (noRemove : ∀ id, operation ≠ .primaryRemove id) :
    Removals (system.eventOf caller choice operation :: system.trace) := by
  have all : ∀ other, pendingOf other (system.eventOf caller choice operation ::
      system.trace) = pendingOf other system.trace := by
    intro other
    by_cases own : caller = other
    · subst own
      exact pending
    · exact pendingOf_other own
  refine ⟨?_, ?_, ?_⟩
  · intro other
    rw [all]
    exact removals.nodup other
  · intro other player member
    rw [all] at member
    rw [gone, removed_cons_of_ne noRemove]
    exact ⟨(removals.owed member).1.cons _, (removals.owed member).2⟩
  · intro other player member
    rw [removed_cons_of_ne noRemove] at member
    exact (removals.done member).cons _

end Run

section Run

variable {config : Config} {clock : Clock} {system : System}

/-- What a removal finds: the player its caller has settled. -/
theorem Removals.finds {caller : Nat} {request : Request} {id : Uuid}
    (run : Run config clock (.both .keptClaims .absentInserts) system)
    (removals : Removals system.trace)
    (performing : Performing config (.both .keptClaims .absentInserts) system
      caller request (.primaryRemove id)) :
    ∃ player rest, pendingOf caller system.trace = player :: rest ∧
      player.id = id ∧ system.world.primary.lookup id = some player := by
  obtain ⟨_, player, rest, pending, same⟩ := performing.allowed
  refine ⟨player, rest, pending, same, ?_⟩
  have member : player ∈ pendingOf caller system.trace := by
    rw [pendingOf, pending]
    exact List.mem_cons_self ..
  obtain ⟨settles, kept⟩ := removals.owed member
  have stored : player ∈ stored system.trace := by
    rcases settles with transfer | transfer
    · exact Run.stored_of_transfer run transfer
    · exact Run.stored_of_transfer run transfer
  exact (Run.lookup_iff (Run.right run)).mpr ⟨same, stored, kept⟩

theorem Removals.remove {caller : Nat} {id : Uuid} {player : Player}
    {rest : List Player} {choice : Choice}
    {discipline : Discipline} (run : Run config clock discipline system)
    (removals : Removals system.trace)
    (pending : pendingOf caller system.trace = player :: rest)
    (found : system.world.primary.lookup id = some player) :
    Removals (system.eventOf caller choice (.primaryRemove id) ::
      system.trace) := by
  have popped : pendingOf caller (system.eventOf caller choice
      (.primaryRemove id) :: system.trace) = rest := by
    rw [pendingOf, progressOf_self]
    exact congrArg List.tail pending
  have nodup := removals.nodup caller
  rw [pending] at nodup
  obtain ⟨apart, distinct⟩ := List.nodup_cons.mp nodup
  have own : Settles caller player system.trace := by
    refine (removals.owed ?_).1
    rw [pending]
    exact List.mem_cons_self ..
  have kept : ∀ {other owed}, Settles other owed system.trace →
      owed ∉ gone system.trace → owed ≠ player →
      owed ∉ gone (system.eventOf caller choice (.primaryRemove id) ::
        system.trace) := by
    intro other owed _ kept different
    rw [gone, removed_cons_some found, List.map_cons, List.mem_cons, not_or]
    exact ⟨different, kept⟩
  refine ⟨?_, ?_, ?_⟩
  · intro other
    by_cases same : caller = other
    · subst same
      rw [popped]
      exact distinct
    · rw [pendingOf_other same]
      exact removals.nodup other
  · intro other owed member
    by_cases same : caller = other
    · subst same
      rw [popped] at member
      have before : owed ∈ pendingOf caller system.trace := by
        rw [pending]
        exact List.mem_cons_of_mem _ member
      obtain ⟨settles, still⟩ := removals.owed before
      refine ⟨settles.cons _, kept settles still ?_⟩
      rintro rfl
      exact apart member
    · rw [pendingOf_other same] at member
      obtain ⟨settles, still⟩ := removals.owed member
      refine ⟨settles.cons _, kept settles still ?_⟩
      rintro rfl
      exact same (Run.settles_unique run own settles)
  · intro other taken member
    rw [removed_cons_some found] at member
    rcases List.mem_cons.mp member with equality | earlier
    · cases equality
      exact own.cons _
    · exact (removals.done earlier).cons _

theorem Run.removals
    (run : Run config clock (.both .keptClaims .absentInserts) system) :
    Removals system.trace := by
  refine Run.invariant run (fun _ trace => Removals trace) ?_
    (fun _ _ holds => holds) ?_
  · refine ⟨fun _ => .nil, ?_, ?_⟩
    · intro caller player none
      cases none
    · intro caller player none
      cases none
  · intro system caller request operation choice run performing removals
    cases operation with
    | primaryRemove id =>
        obtain ⟨player, rest, pending, _, found⟩ :=
          removals.finds run performing
        exact removals.remove run pending found
    | exchange player site =>
        have pending : ∀ success,
            (system.world.exchange player site).1 = success →
            pendingOf caller (system.eventOf caller choice
                (.exchange player site) :: system.trace) =
              ((progressOf caller system.trace).removal.next
                (.exchange player site) success).pending := by
          rintro _ rfl
          rw [pendingOf, progressOf_self]
          rfl
        cases answer : (system.world.exchange player site).1 with
        | false =>
            cases site with
            | markMatched =>
                have success :=
                  Run.mark_succeeds (Run.left run) performing.left
                exact absurd (answer.symm.trans success) Bool.false_ne_true
            | _ => exact removals.keep (pending _ answer) (by simp)
        | true =>
            cases site with
            | markMatched =>
                exact removals.settle run answer (.inl rfl) (pending _ answer)
            | tryEvict =>
                exact removals.settle run answer (.inr rfl) (pending _ answer)
            | _ => exact removals.keep (pending _ answer) (by simp)
    | _ =>
        refine removals.keep ?_ (by simp)
        rw [pendingOf, progressOf_self]
        rfl

theorem pendingOf_subset {caller mover : Nat} {operation : Operation}
    {choice : Choice} (noRemove : ∀ id, operation ≠ .primaryRemove id) :
    pendingOf caller system.trace ⊆
      pendingOf caller
        (system.eventOf mover choice operation :: system.trace) := by
  intro player member
  by_cases same : mover = caller
  · subst same
    rw [pendingOf, progressOf_self]
    cases operation with
    | primaryRemove id => exact absurd rfl (noRemove id)
    | exchange other site =>
        cases site with
        | markMatched => exact List.mem_append_left _ member
        | tryEvict =>
            simp only [Progress.next]
            generalize (system.world.perform choice
              (.exchange other .tryEvict)).1 = success
            cases success with
            | false => exact member
            | true => exact List.mem_append_left _ member
        | _ => exact member
    | _ => exact member
  · rw [pendingOf_other same]
    exact member

theorem Run.owed
    (run : Run config clock (.both .keptClaims .absentInserts) system)
    {caller : Nat} {player : Player}
    (settles : Settles caller player system.trace) :
    player ∈ pendingOf caller system.trace ∨
      (caller, player) ∈ removed system.trace := by
  refine Run.invariant run (fun _ trace => Settles caller player trace →
    player ∈ pendingOf caller trace ∨ (caller, player) ∈ removed trace) ?_
    (fun _ _ holds => holds) ?_ settles
  · rintro (none | none) <;> cases none
  · intro system mover request operation choice run performing holds settles
    cases operation with
    | primaryRemove id =>
        obtain ⟨first, rest, pending, _, found⟩ :=
          (Run.removals run).finds run performing
        rw [removed_cons_some found, List.mem_cons]
        rcases holds settles with owed | done
        · by_cases same : mover = caller
          · subst same
            rw [pendingOf, progressOf_self]
            rw [pending] at owed
            rcases List.mem_cons.mp owed with rfl | later
            · exact .inr (.inl rfl)
            · left
              show player ∈ (pendingOf mover system.trace).tail
              rw [pending]
              exact later
          · rw [pendingOf_other same]
            exact .inl owed
        · exact .inr (.inr done)
    | exchange other site =>
        rw [removed_cons_of_ne (by simp)]
        have added (final : site = .markMatched ∨ site = .tryEvict)
            (event : system.eventOf mover choice (.exchange other site) =
              ⟨caller, .exchange player site, true⟩) :
            player ∈ pendingOf caller (system.eventOf mover choice
              (.exchange other site) :: system.trace) := by
          rw [event, pendingOf, progressOf, Contract.ghost_self]
          rcases final with rfl | rfl <;>
            exact List.mem_append_right _ (List.mem_singleton.mpr rfl)
        have earlier : Settles caller player system.trace →
            player ∈ pendingOf caller (system.eventOf mover choice
                (.exchange other site) :: system.trace) ∨
              (caller, player) ∈ removed system.trace := by
          intro settled
          exact (holds settled).imp_left
            fun member => pendingOf_subset (by simp) member
        rcases settles with member | member
        · rcases transfers_cons_cases member with before | event
          · exact earlier (.inl before)
          · obtain ⟨_, rfl⟩ := Operation.exchange.inj
              (congrArg Event.operation event)
            exact .inl (added (.inl rfl) event)
        · rcases transfers_cons_cases member with before | event
          · exact earlier (.inr before)
          · obtain ⟨_, rfl⟩ := Operation.exchange.inj
              (congrArg Event.operation event)
            exact .inl (added (.inr rfl) event)
    | _ =>
        rw [removed_cons_of_ne (by simp)]
        exact (holds settles).imp_left
          fun member => pendingOf_subset (by simp) member

end Run

end Matchmaker
