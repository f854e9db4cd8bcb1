import Matchmaker.Memory

namespace Matchmaker

/-! What the two stores of the pool answer. -/

theorem Choice.walk_perm (choice : Choice) (players : List Player) :
    (choice.walk players).Perm players := by
  unfold walk
  split
  · rename_i perm
    exact List.isPerm_iff.mp perm
  · exact .refl _

section Primary

variable {primary : Primary} {id other : Uuid} {player : Player}

theorem Primary.mem_players :
    player ∈ primary.players ↔
      ∃ id, primary.lookup id = some player := by
  constructor
  · intro member
    obtain ⟨⟨id, stored⟩, entry, rfl⟩ := List.mem_map.mp member
    exact ⟨id, AList.mem_lookup_iff.mpr entry⟩
  · intro given
    obtain ⟨id, found⟩ := given
    exact List.mem_map.mpr ⟨⟨id, player⟩, AList.mem_lookup_iff.mp found, rfl⟩

theorem lookup_insert_eq :
    (primary.insert other player).lookup id =
      if id = other then some player else primary.lookup id := by
  split
  · rename_i same
    subst same
    exact AList.lookup_insert _
  · rename_i different
    exact AList.lookup_insert_ne different

theorem lookup_erase_eq :
    (primary.erase other).lookup id =
      if id = other then none else primary.lookup id := by
  split
  · rename_i same
    subst same
    exact AList.lookup_erase ..
  · rename_i different
    exact AList.lookup_erase_ne different

end Primary

section Index

variable {index : RatingIndex} {key other : Nat × Uuid} {player : Player}

theorem getElem?_indexInsert :
    (index.insert other player)[key]? =
      if other = key then some player else index[key]? := by
  rw [Std.TreeMap.getElem?_insert]
  simp only [compareKeys_eq_iff]

theorem getElem?_indexErase :
    (index.erase other)[key]? =
      if other = key then none else index[key]? := by
  rw [Std.TreeMap.getElem?_erase]
  simp only [compareKeys_eq_iff]

end Index

section Steps

variable {core : Core} {choice : Choice} {operation : Operation}
  {player : Player}

/-- What a step leaves in a store was there before, or is put there now. -/
theorem Core.lookup_before {id : Uuid}
    (found : (core.perform choice operation).2.primary.lookup id =
      some player) :
    core.primary.lookup id = some player ∨
      operation = .primaryInsert player ∧ player.id = id := by
  cases operation with
  | exchange other site =>
      simp only [perform, exchange] at found
      split at found
      · exact .inl found
      · exact .inl found
  | primaryInsert other =>
      simp only [perform, lookup_insert_eq] at found
      split at found
      · rename_i same
        cases found
        exact .inr ⟨rfl, same.symm⟩
      · exact .inl found
  | primaryRemove taken =>
      simp only [perform, lookup_erase_eq] at found
      split at found
      · cases found
      · exact .inl found
  | _ => exact .inl found

theorem Core.index_before {key : Nat × Uuid}
    (found : (core.perform choice operation).2.index[key]? = some player) :
    core.index[key]? = some player ∨
      operation = .indexInsert player ∧ player.ratingKey = key := by
  cases operation with
  | exchange other site =>
      simp only [perform, exchange] at found
      split at found
      · exact .inl found
      · exact .inl found
  | indexInsert other =>
      simp only [perform, getElem?_indexInsert] at found
      split at found
      · rename_i same
        cases found
        exact .inr ⟨rfl, same⟩
      · exact .inl found
  | indexRemove taken =>
      simp only [perform, getElem?_indexErase] at found
      split at found
      · cases found
      · exact .inl found
  | _ => exact .inl found

end Steps

/-- The index has an entry exactly where the primary store has a player of that
rating, and it leads to the same player. -/
def Synchronised (core : Core) : Prop :=
  ∀ (skillRating : Nat) (id : Uuid), core.index[(skillRating, id)]? =
    (core.primary.lookup id).filter (·.skillRating = skillRating)

/-- Both stores keep a player under its own key. -/
structure WellKeyed (core : Core) : Prop where
  primary : ∀ {id : Uuid} {player : Player},
    core.primary.lookup id = some player → player.id = id
  index : ∀ {key : Nat × Uuid} {player : Player},
    core.index[key]? = some player → player.ratingKey = key

namespace WellKeyed

variable {core : Core} (keyed : WellKeyed core)
include keyed

theorem nodup_players : core.primary.players.Nodup := by
  apply List.Nodup.of_map Player.id
  have keys : core.primary.players.map Player.id = core.primary.keys := by
    rw [Primary.players, List.map_map]
    apply List.map_congr_left
    intro entry member
    exact keyed.primary (AList.mem_lookup_iff.mpr member)
  rw [keys]
  exact core.primary.keys_nodup

theorem nodup_values : (core.index.toList.map (·.2)).Nodup := by
  apply List.Nodup.of_map Player.ratingKey
  have keys : (core.index.toList.map (·.2)).map Player.ratingKey =
      core.index.keys := by
    rw [List.map_map, ← Std.TreeMap.map_fst_toList_eq_keys]
    apply List.map_congr_left
    rintro ⟨key, player⟩ member
    exact keyed.index
      (Std.TreeMap.mem_toList_iff_getElem?_eq_some.mp member)
  rw [keys]
  exact Std.TreeMap.nodup_keys

theorem insertPrimary (player : Player) :
    WellKeyed { core with primary := core.primary.insert player.id player } where
  primary := by
    intro id other found
    rw [lookup_insert_eq] at found
    split at found
    · rename_i same
      cases found
      exact same.symm
    · exact keyed.primary found
  index := keyed.index

theorem insertIndex (player : Player) :
    WellKeyed
      { core with index := core.index.insert player.ratingKey player } where
  primary := keyed.primary
  index := by
    intro key other found
    rw [getElem?_indexInsert] at found
    split at found
    · rename_i same
      cases found
      exact same
    · exact keyed.index found

theorem perform (choice : Choice) (operation : Operation) :
    WellKeyed (core.perform choice operation).2 where
  primary := by
    intro id player found
    rcases Core.lookup_before found with earlier | now
    · exact keyed.primary earlier
    · exact now.2
  index := by
    intro key player found
    rcases Core.index_before found with earlier | now
    · exact keyed.index earlier
    · exact now.2

end WellKeyed

theorem WellKeyed.new (clock : Clock) : WellKeyed (Core.new clock) where
  primary := by
    intro id player found
    cases found
  index := by
    intro key player found
    simp [Core.new] at found

theorem compareKeys_isLE {left right : Nat × Uuid} :
    (compareKeys left right).isLE = true ↔
      left.1 < right.1 ∨ left.1 = right.1 ∧ left.2 ≤ right.2 := by
  simp only [compareKeys, compareLex, compareOn, Ordering.isLE_then_iff_or,
    Nat.compare_eq_lt, Nat.compare_eq_eq]
  have ids : (compare left.2 right.2).isLE = true ↔ left.2 ≤ right.2 :=
    Nat.isLE_compare
  rw [ids]

theorem mem_indexRange {index : RatingIndex} {lower upper : Nat × Uuid}
    {player : Player} :
    player ∈ (index.toList.filter fun entry =>
        (compareKeys lower entry.1).isLE &&
          (compareKeys entry.1 upper).isLE).map (·.2) ↔
      ∃ key, index[key]? = some player ∧
        (compareKeys lower key).isLE ∧ (compareKeys key upper).isLE := by
  simp only [List.mem_map, List.mem_filter, Bool.and_eq_true]
  constructor
  · intro given
    obtain ⟨⟨key, player⟩, ⟨member, bounds⟩, rfl⟩ := given
    exact ⟨key, Std.TreeMap.mem_toList_iff_getElem?_eq_some.mp member, bounds⟩
  · intro given
    obtain ⟨key, found, bounds⟩ := given
    exact ⟨(key, player),
      ⟨Std.TreeMap.mem_toList_iff_getElem?_eq_some.mpr found, bounds⟩, rfl⟩

end Matchmaker
