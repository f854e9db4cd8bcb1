import Matchmaker.Sequential.Seeds

namespace Matchmaker

open Concurrent Ranking

/-! Pools that are filled by one insertion after the other. -/

namespace Core

def enter (player : Player) (core : Core) : Core :=
  { core with
    primary := core.primary.insert player.id player
    index := core.index.insert player.ratingKey player }

def stocked (clock : Clock) (players : List Player) : Core :=
  players.foldr enter (new clock)

end Core

theorem WellKeyed.enter {core : Core} (keyed : WellKeyed core)
    (player : Player) : WellKeyed (core.enter player) :=
  ⟨(keyed.insertPrimary player).primary, (keyed.insertIndex player).index⟩

theorem Synchronised.enter {core : Core} (synchronised : Synchronised core)
    {player : Player} (absent : core.primary.lookup player.id = none) :
    Synchronised (core.enter player) := by
  intro skillRating id
  simp only [Core.enter, getElem?_indexInsert, lookup_insert_eq]
  have before := synchronised skillRating id
  by_cases here : id = player.id
  · subst here
    rw [absent] at before
    by_cases same : player.skillRating = skillRating
    · simp [Player.ratingKey, Option.filter, same]
    · simp [Player.ratingKey, Option.filter, same, before]
  · have elsewhere : player.ratingKey ≠ (skillRating, id) := by
      intro same
      exact here (congrArg Prod.snd same).symm
    rw [if_neg elsewhere, if_neg here]
    exact before

theorem Consistent.enter {core : Core} (consistent : Consistent core)
    {player : Player} (bounded : player.skillRating ≤ maxSkillRating)
    (absent : core.primary.lookup player.id = none) :
    Consistent (core.enter player) where
  toWellKeyed := consistent.toWellKeyed.enter player
  synchronised := consistent.synchronised.enter absent
  bounded := by
    intro id other stored
    rw [Core.enter, lookup_insert_eq] at stored
    split at stored
    · cases stored
      exact bounded
    · exact consistent.bounded stored

theorem mem_of_stocked {clock : Clock} {players : List Player} {id : Uuid}
    {player : Player}
    (found : (Core.stocked clock players).primary.lookup id = some player) :
    player ∈ players ∧ player.id = id := by
  induction players with
  | nil => cases found
  | cons first rest induction =>
      rw [Core.stocked, List.foldr_cons, Core.enter, lookup_insert_eq] at found
      split at found
      · rename_i same
        cases found
        exact ⟨List.mem_cons_self .., same.symm⟩
      · obtain ⟨member, same⟩ := induction found
        exact ⟨List.mem_cons_of_mem _ member, same⟩

theorem WellKeyed.stocked (clock : Clock) (players : List Player) :
    WellKeyed (Core.stocked clock players) := by
  induction players with
  | nil => exact .new clock
  | cons player rest induction => exact induction.enter player

theorem Synchronised.stocked (clock : Clock) {players : List Player}
    (distinct : (players.map (·.id)).Nodup) :
    Synchronised (Core.stocked clock players) := by
  induction players with
  | nil =>
      intro skillRating id
      simp [Core.stocked, Core.new]
  | cons player rest induction =>
      rw [List.map_cons, List.nodup_cons] at distinct
      apply (induction distinct.2).enter
      apply Option.eq_none_iff_forall_ne_some.mpr
      intro other found
      obtain ⟨member, same⟩ := mem_of_stocked found
      exact distinct.1 (same ▸ List.mem_map_of_mem member)

theorem players_stocked (clock : Clock) {players : List Player}
    (distinct : (players.map (·.id)).Nodup) :
    (Core.stocked clock players).primary.players = players := by
  induction players with
  | nil => rfl
  | cons player rest induction =>
      rw [List.map_cons, List.nodup_cons] at distinct
      have absent : player.id ∉ (Core.stocked clock rest).primary := by
        intro present
        obtain ⟨other, found⟩ := Option.isSome_iff_exists.mp
          (AList.lookup_isSome.mpr present)
        obtain ⟨member, same⟩ := mem_of_stocked found
        exact distinct.1 (same ▸ List.mem_map_of_mem member)
      change Primary.players ((Core.stocked clock rest).primary.insert
        player.id player) = _
      rw [Primary.players, AList.entries_insert_of_notMem absent,
        List.map_cons]
      exact congrArg _ (induction distinct.2)

theorem cells_stocked (clock : Clock) (players : List Player)
    (player : Player) : (Core.stocked clock players).cells player = .new := by
  induction players with
  | nil => rfl
  | cons _ _ induction => exact induction

theorem waiting_stocked (clock : Clock) {players : List Player}
    (distinct : (players.map (·.id)).Nodup) :
    (Core.stocked clock players).waiting = players := by
  rw [Core.waiting, players_stocked clock distinct]
  apply List.filter_eq_self.mpr
  intro player _
  simp [Core.waits, cells_stocked, PlayerCells.new]

theorem window_stocked (clock : Clock) {players : List Player}
    (distinct : (players.map (·.id)).Nodup) (bounds : Nat × Nat) :
    (Core.stocked clock players).window bounds =
      players.filter fun player => !player.outside bounds := by
  rw [Core.window_eq, waiting_stocked clock distinct]

theorem Consistent.stocked (clock : Clock) {players : List Player}
    (distinct : (players.map (·.id)).Nodup)
    (bounded : ∀ player ∈ players, player.skillRating ≤ maxSkillRating) :
    Consistent (.stocked clock players) :=
  ⟨.stocked clock players, .stocked clock distinct,
    fun found => bounded _ (mem_of_stocked found).1⟩

theorem seed_stocked {ctx : WorkerContext} {choice : Choice} {clock : Clock}
    {players : List Player} {seed : Player}
    (distinct : (players.map (·.id)).Nodup)
    (eldest : Least Player.seedKey players (some seed)) :
    (Core.stocked clock players).seed choice ctx .new = some seed := by
  refine Core.Selects.unique (.stocked clock players)
    (Alone.frozen finds_selectSeed choice).1 (.direct ?_ nofun)
  rw [waiting_stocked clock distinct]
  exact eldest

end Matchmaker
