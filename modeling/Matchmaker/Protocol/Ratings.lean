import Matchmaker.Protocol.Overlap

namespace Matchmaker

open Concurrent

/-! The rating index, and how far it agrees with the primary store. -/

/-- No step on the index touches the entry of a player that is in the primary
store, unless it is that player's own. -/
def Discipline.ownEntries : Discipline where
  starts := fun _ _ => true
  performs := fun system _ operation =>
    match operation with
    | .indexInsert player | .indexRemove player =>
        system.world.index[player.ratingKey]?.all fun other =>
          other = player ||
            system.world.primary.lookup other.id ≠ some other
    | _ => true

/-- A player is taken out of the index only after it was put there. -/
def Discipline.lateRemovals : Discipline where
  starts := fun _ _ => true
  performs := fun system _ operation =>
    match operation with
    | .indexRemove player => player ∈ indexed system.trace
    | _ => true

section Steps

variable {system : System} {caller : Nat} {operation : Operation}
  {choice : Choice} {player : Player}

theorem mem_unindexed_cons :
    player ∈ unindexed
        (system.eventOf caller choice operation :: system.trace) ↔
      player ∈ unindexed system.trace ∨ operation = .indexRemove player := by
  cases operation with
  | indexRemove other =>
      simp [unindexed, unindexedOf, or_comm, eq_comm]
  | _ => exact ⟨.inl, fun either => either.resolve_right (by simp)⟩

theorem index_perform
    (noInsert : ∀ player, operation ≠ .indexInsert player)
    (noRemove : ∀ player, operation ≠ .indexRemove player) :
    (system.world.perform choice operation).2.index =
      system.world.index := by
  cases operation with
  | indexInsert player => exact absurd rfl (noInsert player)
  | indexRemove player => exact absurd rfl (noRemove player)
  | exchange player site =>
      simp only [Core.perform, Core.exchange]
      split <;> rfl
  | _ => rfl

end Steps

section Run

variable {config : Config} {clock : Clock} {discipline : Discipline}
  {system : System}

/-- What a call has taken out of the primary store only. -/
abbrev halfwayOf (caller : Nat) (trace : Trace) : Option Player :=
  (progressOf caller trace).removal.halfway

/-- A removal from the primary store is followed by one from the index. -/
structure Halfway (trace : Trace) : Prop where
  taken : ∀ {caller player}, halfwayOf caller trace = some player →
    (caller, player) ∈ removed trace
  finished : ∀ {caller player}, (caller, player) ∈ removed trace →
    halfwayOf caller trace = some player ∨ player ∈ unindexed trace

theorem halfway_perform {caller mover : Nat} {operation : Operation}
    {choice : Choice}
    (noRemove : ∀ id, operation ≠ .primaryRemove id)
    (noErase : ∀ player, operation ≠ .indexRemove player) :
    halfwayOf caller
        (system.eventOf mover choice operation :: system.trace) =
      halfwayOf caller system.trace := by
  by_cases same : mover = caller
  · subst same
    rw [halfwayOf, progressOf_self]
    cases operation with
    | primaryRemove id => exact absurd rfl (noRemove id)
    | indexRemove player => exact absurd rfl (noErase player)
    | exchange player site =>
        cases site with
        | tryEvict =>
            simp only [Progress.next]
            generalize (system.world.perform choice
              (.exchange player .tryEvict)).1 = success
            cases success <;> rfl
        | _ => rfl
    | _ => rfl
  · rw [halfwayOf, progressOf_other same]

theorem halfway_primaryRemove {mover : Nat} {id : Uuid} {choice : Choice} :
    halfwayOf mover (system.eventOf mover choice (.primaryRemove id) ::
      system.trace) = system.world.primary.lookup id := by
  rw [halfwayOf, progressOf_self]
  rfl

theorem halfway_indexRemove {mover : Nat} {player : Player}
    {choice : Choice} :
    halfwayOf mover (system.eventOf mover choice (.indexRemove player) ::
      system.trace) = none := by
  rw [halfwayOf, progressOf_self]
  rfl

theorem Run.halfway (run : Run config clock discipline system) :
    Halfway system.trace := by
  apply Run.invariant run (fun _ trace => Halfway trace) ⟨nofun, nofun⟩
    (fun _ _ holds => holds)
  intro system mover request operation choice run performing holds
  cases operation with
  | primaryRemove id =>
      have free : halfwayOf mover system.trace = none := performing.allowed.1
      have listed : ∀ {caller player}, (caller, player) ∈ removed
          (system.eventOf mover choice (.primaryRemove id) :: system.trace) ↔
          (caller, player) ∈ removed system.trace ∨
            caller = mover ∧
              system.world.primary.lookup id = some player := by
        intro caller player
        cases found : system.world.primary.lookup id with
        | none => simp [removed_cons_none found]
        | some first =>
            rw [removed_cons_some found, List.mem_cons, or_comm]
            simp [eq_comm]
      constructor
      · intro caller player half
        rw [listed]
        by_cases same : mover = caller
        · subst same
          rw [halfway_primaryRemove] at half
          exact .inr ⟨rfl, half⟩
        · rw [halfwayOf, progressOf_other same] at half
          exact .inl (holds.taken half)
      · intro caller player member
        rw [mem_unindexed_cons]
        by_cases same : mover = caller
        · subst same
          rw [halfway_primaryRemove]
          rcases listed.mp member with earlier | ⟨_, found⟩
          · refine .inr (.inl ((holds.finished earlier).resolve_left ?_))
            rw [free]
            simp
          · exact .inl found
        · rw [halfwayOf, progressOf_other same]
          rcases listed.mp member with earlier | ⟨rfl, _⟩
          · exact (holds.finished earlier).imp_right .inl
          · exact absurd rfl same
  | indexRemove taken =>
      have half : halfwayOf mover system.trace = some taken :=
        performing.allowed
      constructor
      · intro caller player remaining
        rw [removed_cons_of_ne (by simp)]
        by_cases same : mover = caller
        · subst same
          rw [halfway_indexRemove] at remaining
          cases remaining
        · rw [halfwayOf, progressOf_other same] at remaining
          exact holds.taken remaining
      · intro caller player member
        rw [removed_cons_of_ne (by simp)] at member
        rw [mem_unindexed_cons]
        rcases holds.finished member with remaining | done
        · by_cases same : mover = caller
          · subst same
            rw [half] at remaining
            cases remaining
            exact .inr (.inr rfl)
          · rw [halfwayOf, progressOf_other same]
            exact .inl remaining
        · exact .inr (.inl done)
  | _ =>
      constructor
      · intro caller player half
        rw [halfway_perform (by simp) (by simp)] at half
        rw [removed_cons_of_ne (by simp)]
        exact holds.taken half
      · intro caller player member
        rw [removed_cons_of_ne (by simp)] at member
        rw [halfway_perform (by simp) (by simp), mem_unindexed_cons]
        exact (holds.finished member).imp_right .inl

theorem Performing.not_indexed {caller : Nat} {request : Request}
    {player : Player} (run : Run config clock discipline system)
    (performing : Performing config discipline system caller request
      (.indexInsert player)) : player ∉ indexed system.trace := by
  intro already
  have pending : enrolmentOf caller system.trace = .stored player :=
    performing.allowed
  have enrolled := Run.enrolled run
  obtain ⟨other, has⟩ := enrolled.indexed.mp already
  have same : caller = other := by
    apply enrolled.apart (by rw [pending]; rfl)
    rw [has]
    rfl
  rw [← same, pending] at has
  cases has

end Run

section Run

variable {config : Config} {clock : Clock} {system : System}

theorem Run.indexed_of_unindexed (run : Run config clock .lateRemovals system)
    {player : Player} (member : player ∈ unindexed system.trace) :
    player ∈ indexed system.trace := by
  refine Run.invariant run (fun _ trace => player ∈ unindexed trace →
    player ∈ indexed trace) nofun (fun _ _ holds => holds) ?_ member
  intro system caller request operation choice run performing holds member
  rw [mem_indexed_cons]
  rcases mem_unindexed_cons.mp member with earlier | rfl
  · exact .inl (holds earlier)
  · exact .inl (of_decide_eq_true performing.permitted)

theorem Run.index_sound (run : Run config clock .lateRemovals system)
    {key : Nat × Uuid} {player : Player}
    (found : system.world.index[key]? = some player) :
    player ∉ unindexed system.trace := by
  refine Run.invariant run (fun core trace =>
    core.index[key]? = some player → player ∉ unindexed trace) ?_
    (fun _ _ holds => holds) ?_ found
  · intro _ none
    cases none
  · intro system caller request operation choice run performing holds found
    rw [mem_unindexed_cons, not_or]
    rcases Core.index_before found with earlier | ⟨rfl, _⟩
    · refine ⟨holds earlier, ?_⟩
      rintro rfl
      simp only [Core.perform, getElem?_indexErase] at found
      split at found
      · cases found
      · rename_i different
        exact different ((Run.sound run).keyed.index found)
    · refine ⟨?_, by simp⟩
      intro member
      exact performing.not_indexed run (Run.indexed_of_unindexed run member)

/-- A player that was put into the index is found there as long as it is in
the primary store. -/
theorem Run.index_complete
    (run : Run config clock (.both .absentInserts .ownEntries) system)
    {player : Player} (member : player ∈ indexed system.trace)
    (found : system.world.primary.lookup player.id = some player) :
    system.world.index[player.ratingKey]? = some player := by
  refine Run.invariant run (fun core trace => player ∈ indexed trace →
    core.primary.lookup player.id = some player →
    core.index[player.ratingKey]? = some player) nofun
    (fun _ _ holds => holds) ?_ member found
  intro system caller request operation choice run performing holds member
    found
  have own : ∀ {other}, operation = .indexInsert other ∨
      operation = .indexRemove other → other.ratingKey = player.ratingKey →
      player ∈ indexed system.trace →
      system.world.primary.lookup player.id = some player →
      player = other := by
    intro other touches same earlier present
    have permitted := performing.right.permitted
    have here := holds earlier present
    rw [← same] at here
    rcases touches with rfl | rfl <;>
      simpa [Discipline.ownEntries, here, present] using permitted
  rw [mem_indexed_cons] at member
  cases operation with
  | indexInsert first =>
      simp only [Core.perform, getElem?_indexInsert]
      split
      · rename_i same
        rcases member with earlier | inserted
        · rw [own (.inl rfl) same earlier found]
        · cases inserted
          rfl
      · rename_i different
        rcases member with earlier | inserted
        · exact holds earlier found
        · cases inserted
          exact absurd rfl different
  | indexRemove taken =>
      have earlier := member.resolve_right (by simp)
      simp only [Core.perform, getElem?_indexErase]
      split
      · rename_i same
        obtain rfl := own (.inr rfl) same earlier found
        have half : halfwayOf caller system.trace = some player :=
          performing.allowed
        have removal := (Run.halfway run).taken half
        have kept := ((Run.lookup_iff (Run.left run)).mp found).2.2
        exact absurd (List.mem_map.mpr ⟨_, removal, rfl⟩) kept
      · exact holds earlier found
  | primaryInsert first =>
      have earlier := member.resolve_right (by simp)
      simp only [Core.perform, lookup_insert_eq] at found ⊢
      split at found
      · cases found
        exact absurd (Run.stored_of_indexed run earlier)
          (performing.not_stored run)
      · exact holds earlier found
  | primaryRemove id =>
      simp only [Core.perform, lookup_erase_eq] at found
      split at found
      · cases found
      · exact holds (member.resolve_right (by simp)) found
  | _ =>
      rw [primary_perform (by simp) (by simp)] at found
      rw [index_perform (by simp) (by simp)]
      exact holds (member.resolve_right (by simp)) found

theorem Run.indexed_of_quiet {discipline : Discipline}
    (run : Run config clock discipline system) (quiet : system.Quiet)
    {player : Player} (member : player ∈ stored system.trace) :
    player ∈ indexed system.trace := by
  have enrolled := Run.enrolled run
  obtain ⟨caller, has⟩ := enrolled.stored.mp member
  refine enrolled.indexed.mpr ⟨caller, has.resolve_left ?_⟩
  intro stored
  rcases (Run.rested_of_quiet run quiet caller).enrolment with
    none | ⟨other, indexed⟩
  · rw [enrolmentOf, none] at stored
    cases stored
  · rw [enrolmentOf, indexed] at stored
    cases stored

theorem Run.published_removed
    (run : Run config clock (.both .keptClaims .absentInserts) system)
    {player : Player} (member : player ∈ published system.trace) :
    player ∈ gone system.trace ∧ player ∈ unindexed system.trace := by
  refine Run.invariant run (fun _ trace => player ∈ published trace →
    player ∈ gone trace ∧ player ∈ unindexed trace) nofun
    (fun _ _ holds => holds) ?_ member
  intro system mover request operation choice run performing holds member
  have kept (before : player ∈ gone system.trace ∧
      player ∈ unindexed system.trace) :
      player ∈ gone
          (system.eventOf mover choice operation :: system.trace) ∧
        player ∈ unindexed
          (system.eventOf mover choice operation :: system.trace) :=
    ⟨gone_subset _ _ before.1, mem_unindexed_cons.mpr (.inl before.2)⟩
  cases operation with
  | pushHistory teamA teamB record limit =>
      rw [published, publications_push, List.flatMap_cons] at member
      rcases List.mem_append.mp member with now | earlier
      · apply kept
        have publishes := performing.allowed.2
        have marked : phaseOf mover player system.trace = .marked :=
          ((publishes.players player).mp now).resolve_right
            (Run.never_missed (Run.left run))
        have settles : Settles mover player system.trace :=
          .inl ((Run.settled_iff run rfl).mp marked)
        have removal : (mover, player) ∈ removed system.trace := by
          apply (Run.owed run settles).resolve_left
          rw [pendingOf, publishes.removed]
          exact List.not_mem_nil
        refine ⟨List.mem_map.mpr ⟨_, removal, rfl⟩, ?_⟩
        apply ((Run.halfway run).finished removal).resolve_left
        rw [halfwayOf, publishes.removed]
        rintro ⟨⟩
      · exact kept (holds earlier)
  | _ => exact kept (holds member)

end Run

end Matchmaker
