import Matchmaker.Outcome.Fifo

namespace Matchmaker

open Concurrent Ranking

/-! Two pools that hold the same players, stored in whatever order. -/

/-- The player wherever it is allocated. -/
def Player.bare (player : Player) : Player := { player with address := 0 }

def Core.describe (core : Core) (player : Player) : Player × PlayerState :=
  (player.bare, (core.cells player).state)

/-- The stores tell the same about every player. -/
structure Core.Twin (core core' : Core) : Prop where
  primary : ∀ id, (core.primary.lookup id).map core.describe =
    (core'.primary.lookup id).map core'.describe
  index : ∀ key : Nat × Uuid, core.index[key]?.map core.describe =
    core'.index[key]?.map core'.describe
  clock : core.clock = core'.clock

variable {ctx : WorkerContext} {state : WorkerState}
  {core core' final final' : Core} {seed seed' : Player} {bounds : Nat × Nat}

section Bare

variable {player other : Player} (same : player.bare = other.bare)
include same

theorem id_of_bare : player.id = other.id := by
  have ids := congrArg Player.id same
  exact ids

theorem skillRating_of_bare : player.skillRating = other.skillRating := by
  have ratings := congrArg Player.skillRating same
  exact ratings

theorem joinTimestamp_of_bare :
    player.joinTimestamp = other.joinTimestamp := by
  have timestamps := congrArg Player.joinTimestamp same
  exact timestamps

theorem stuck_of_bare : state.Stuck player ↔ state.Stuck other := by
  rw [WorkerState.Stuck, WorkerState.Stuck, id_of_bare same]

end Bare

section Waiting

variable (twin : core.Twin core')
include twin

theorem Core.Twin.symm : core'.Twin core where
  primary id := (twin.primary id).symm
  index key := (twin.index key).symm
  clock := twin.clock.symm

/-- Every waiting player has a twin that waits. -/
theorem Core.Twin.bare_waiting {player : Player}
    (member : player ∈ core.waiting) :
    player.bare ∈ core'.waiting.map Player.bare := by
  obtain ⟨⟨id, found⟩, waits⟩ := mem_waiting.mp member
  have described := twin.primary id
  rw [found, Option.map_some] at described
  obtain ⟨other, found', same⟩ := Option.map_eq_some_iff.mp described.symm
  obtain ⟨bare, states⟩ := Prod.mk.inj same
  exact List.mem_map.mpr ⟨other,
    mem_waiting.mpr ⟨⟨id, found'⟩, states.trans waits⟩, bare⟩

omit twin in
theorem Core.bare_injOn (keyed : WellKeyed core) :
    Set.InjOn Player.bare {player | player ∈ core.waiting} := by
  intro player member other member' same
  exact eq_of_id keyed (mem_waiting.mp member).1 (mem_waiting.mp member').1
    (id_of_bare same)

variable (keyed : WellKeyed core) (keyed' : WellKeyed core')
include keyed keyed'

theorem Core.Twin.waiting :
    (core.waiting.map Player.bare).Perm (core'.waiting.map Player.bare) := by
  apply (List.perm_ext_iff_of_nodup
    ((nodup_waiting keyed).map_on (bare_injOn keyed))
    ((nodup_waiting keyed').map_on (bare_injOn keyed'))).mpr
  intro player
  constructor
  · intro member
    obtain ⟨source, listed, rfl⟩ := List.mem_map.mp member
    exact twin.bare_waiting listed
  · intro member
    obtain ⟨source, listed, rfl⟩ := List.mem_map.mp member
    exact twin.symm.bare_waiting listed

/-- So have those that wait and satisfy a condition on the player itself. -/
theorem Core.Twin.filter (admits : Player → Bool)
    (blind : ∀ player : Player, admits player.bare = admits player) :
    ((core.waiting.filter admits).map Player.bare).Perm
      ((core'.waiting.filter admits).map Player.bare) := by
  have bare : ∀ players : List Player,
      (players.filter admits).map Player.bare =
        (players.map Player.bare).filter admits := by
    intro players
    rw [List.filter_map]
    congr 1
    exact List.filter_congr fun player _ => (blind player).symm
  rw [bare, bare]
  exact (twin.waiting keyed keyed').filter _

theorem Core.Twin.window (bounds : Nat × Nat) :
    ((core.window bounds).map Player.bare).Perm
      ((core'.window bounds).map Player.bare) := by
  rw [window_eq, window_eq]
  exact twin.filter keyed keyed' _ fun _ => rfl

omit twin keyed' in
theorem Core.seedKey_bare_injOn {admits : Player → Bool} :
    Set.InjOn Player.seedKey
      {player | player ∈ (core.waiting.filter admits).map Player.bare} := by
  intro player member other member' same
  obtain ⟨source, listed, rfl⟩ := List.mem_map.mp member
  obtain ⟨source', listed', rfl⟩ := List.mem_map.mp member'
  have keys : source.seedKey = source'.seedKey := same
  rw [seedKey_injOn keyed (List.mem_filter.mp listed).1
    (List.mem_filter.mp listed').1 keys]

theorem Core.Twin.least {admits : Player → Bool}
    (blind : ∀ player : Player, admits player.bare = admits player)
    {eldest eldest' : Option Player}
    (least : Least Player.seedKey (core.waiting.filter admits) eldest)
    (least' : Least Player.seedKey (core'.waiting.filter admits) eldest') :
    eldest.map Player.bare = eldest'.map Player.bare := by
  have key : ∀ player : Player, player.bare.seedKey = player.seedKey :=
    fun _ => rfl
  have moved := (least.map key).perm (twin.filter keyed keyed' admits blind)
  exact moved.unique (seedKey_bare_injOn keyed') (least'.map key)

theorem Core.Twin.eldest {eldest eldest' : Option Player}
    (least : Least Player.seedKey core.waiting eldest)
    (least' : Least Player.seedKey core'.waiting eldest') :
    eldest.map Player.bare = eldest'.map Player.bare := by
  rw [← List.filter_true core.waiting] at least
  rw [← List.filter_true core'.waiting] at least'
  exact twin.least keyed keyed' (fun _ => rfl) least least'

omit keyed keyed' in
theorem Core.Twin.scanned (same : seed.bare = seed'.bare) :
    core.scanned ctx seed = core'.scanned ctx seed' := by
  rw [Core.scanned, Core.scanned, twin.clock, skillRating_of_bare same,
    joinTimestamp_of_bare same]

theorem Core.Twin.selects {seed seed' : Option Player}
    (selects : core.Selects Eq ctx state seed)
    (selects' : core'.Selects Eq ctx state seed') :
    seed.map Player.bare = seed'.map Player.bare := by
  cases selects with
  | direct eldest fresh =>
      cases selects' with
      | direct eldest' fresh' => exact twin.eldest keyed keyed' eldest eldest'
      | beyond eldest' stuck =>
          have same := twin.eldest keyed keyed' eldest eldest'
          obtain ⟨player, rfl, bare⟩ := Option.map_eq_some_iff.mp same
          exact absurd ((stuck_of_bare bare).mpr stuck) (fresh player rfl)
  | beyond eldest stuck scans next chosen =>
      cases selects' with
      | direct eldest' fresh =>
          have same := twin.eldest keyed keyed' eldest eldest'
          obtain ⟨player, rfl, bare⟩ := Option.map_eq_some_iff.mp same.symm
          exact absurd ((stuck_of_bare bare).mpr stuck) (fresh player rfl)
      | beyond eldest' stuck' scans' next' chosen' =>
          have same := Option.some.inj
            (twin.eldest keyed keyed' eldest eldest')
          obtain rfl := sometime_eq.mp scans
          obtain rfl := sometime_eq.mp scans'
          rw [show (core'.timed core'.clock).scanned ctx _ =
            core.scanned ctx _ from (twin.scanned same).symm] at next'
          have others := twin.least keyed keyed' (fun _ => rfl) next next'
          rw [chosen, chosen', Option.map_or, Option.map_or, others,
            Option.map_some, Option.map_some, same]

end Waiting

end Matchmaker
