import Matchmaker.Protocol.Ratings

namespace Matchmaker

open Concurrent

/-! The two stores of the pool are written in separate steps. -/

section Run

variable {config : Config} {clock : Clock} {system : System}

/-- Enqueues of one identifier do not overlap, and the steps of one removal or
insertion on the index do not meet those of another. -/
abbrev Discipline.separateSteps : Discipline :=
  .both .noOverlap (.both .ownEntries .lateRemovals)

theorem Run.absentInserts_of_separateSteps
    (run : Run config clock .separateSteps system) :
    Run config clock (.both .absentInserts .ownEntries) system :=
  Run.mono run (fun _ _ _ => rfl) fun before performing =>
    Bool.and_eq_true_iff.mpr
      ⟨Run.inserts_absent (Run.left before) performing.left,
        performing.right.left.permitted⟩

theorem Run.lookup_of_index (run : Run config clock .separateSteps system)
    (quiet : system.Quiet) {key : Nat × Uuid} {player : Player}
    (found : system.world.index[key]? = some player) :
    system.world.primary.lookup player.id = some player := by
  have separate := Run.absentInserts_of_separateSteps run
  refine (Run.lookup_iff (Run.left separate)).mpr ⟨rfl,
    Run.stored_of_indexed run (Run.indexed_of_index run found), ?_⟩
  intro gone
  obtain ⟨⟨caller, _⟩, removal, rfl⟩ := List.mem_map.mp gone
  refine Run.index_sound (Run.right (Run.right run)) found
    (((Run.halfway run).finished removal).resolve_left ?_)
  rw [halfwayOf, (Run.rested_of_quiet run quiet caller).removal]
  rintro ⟨⟩

/-- When no call is in progress, the index has an entry for every player in the
primary store, and no other. -/
theorem Run.entry_iff (run : Run config clock .separateSteps system)
    (quiet : system.Quiet) {skillRating : Nat} {id : Uuid} {player : Player} :
    system.world.index[(skillRating, id)]? = some player ↔
      system.world.primary.lookup id = some player ∧
        player.skillRating = skillRating := by
  have keyed := (Run.sound run).keyed
  constructor
  · intro found
    have here := Run.lookup_of_index run quiet found
    obtain ⟨rfl, rfl⟩ := Prod.mk.inj (keyed.index found)
    exact ⟨here, rfl⟩
  · intro given
    obtain ⟨found, rfl⟩ := given
    obtain rfl := keyed.primary found
    exact Run.index_complete (Run.absentInserts_of_separateSteps run)
      (Run.indexed_of_quiet run quiet (Run.stored_of_primary run found)) found

/-- When no call is in progress the two stores agree, as long as no index step
touches the entry of another player in the pool and every player is put into
the index before it is taken out. -/
theorem run_synchronised (run : Run config clock .separateSteps system)
    (quiet : system.Quiet) : Synchronised system.world := by
  intro skillRating id
  apply Option.ext
  intro player
  rw [Option.filter_eq_some_iff, decide_eq_true_iff]
  exact Run.entry_iff run quiet

end Run

/-- A player is cancelled before its enqueue has put it into the index. -/
def earlyCancel : List Action :=
  .start (.enqueue 1 1500) :: turns 0 4 ++
    .start (.cancel 1) :: turns 1 6 ++ turns 0 4

set_option maxRecDepth 100000 in
theorem exists_stale_entry :
    ∃ system, Run .default ⟨0, 1000⟩ (.both .noResets .noOverlap) system ∧
      system.Quiet ∧ ¬ Synchronised system.world := by
  obtain ⟨system, run, check⟩ : ∃ system,
      Run .default ⟨0, 1000⟩ (.both .noResets .noOverlap) system ∧
        decide (system.Quiet ∧
          (system.world.index[((1500, 1) : Nat × Uuid)]?).isSome = true ∧
          system.world.primary.lookup 1 = none) = true := by
    apply exists_run_of_play earlyCancel
    decide +kernel
  obtain ⟨quiet, stale, gone⟩ := of_decide_eq_true check
  refine ⟨system, run, quiet, ?_⟩
  intro synchronised
  rw [synchronised, gone] at stale
  cases stale

set_option maxRecDepth 100000 in
theorem run_synchronised_match :
    ∃ system, Run .default ⟨0, 1000⟩ .separateSteps system ∧
      system.Quiet ∧ Synchronised system.world ∧
      system.world.primary.players.length = 1 := by
  obtain ⟨system, run, check⟩ : ∃ system,
      Run .default ⟨0, 1000⟩ .separateSteps system ∧
        decide (system.Quiet ∧
          system.world.primary.players.length = 1) = true := by
    apply exists_run_of_play (arrivals 11 1500 ++
      .start (.attemptMatch 1) :: turns 11 150)
    decide +kernel
  obtain ⟨quiet, length⟩ := of_decide_eq_true check
  exact ⟨system, run, quiet, run_synchronised run quiet, length⟩

end Matchmaker
