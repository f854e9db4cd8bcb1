import Matchmaker.Outcome.Uncontended

namespace Matchmaker

open Concurrent Ranking

/-! Which ten players of the window an attempt matches. -/

/-- The order of the rating index. -/
def Player.indexKey (player : Player) : Nat ×ₗ Uuid :=
  toLex player.ratingKey

variable {ctx : WorkerContext} {state : WorkerState} {core : Core}
  {choice : Choice} {bounds : Nat × Nat}

theorem compareKeys_eq_lt {left right : Nat × Uuid} :
    compareKeys left right = .lt ↔ toLex left < toLex right := by
  rw [Prod.Lex.lt_iff]
  simp only [compareKeys, compareLex, compareOn, Ordering.then_eq_lt,
    Nat.compare_eq_lt, Nat.compare_eq_eq]
  have ids : compare left.2 right.2 = .lt ↔ left.2 < right.2 :=
    Nat.compare_eq_lt
  rw [ids]
  exact Iff.rfl

section Window

variable (keyed : WellKeyed core) (synchronised : Synchronised core)
include keyed

theorem Core.indexWindow_increasing :
    (core.indexWindow bounds).Pairwise fun first second =>
      first.indexKey < second.indexKey := by
  have ordered := @Std.TreeMap.ordered_keys_toList _ _ _ core.index _
  refine List.Pairwise.filter _ (List.pairwise_map.mpr ?_)
  apply (ordered.filter _).imp_of_mem
  intro first second member member' below
  have own : ∀ {entry}, entry ∈ core.index.toList →
      entry.2.ratingKey = entry.1 := fun inside =>
    keyed.index (Std.TreeMap.mem_toList_iff_getElem?_eq_some.mp inside)
  rw [Player.indexKey, Player.indexKey, own (List.mem_filter.mp member).1,
    own (List.mem_filter.mp member').1]
  exact compareKeys_eq_lt.mp below

include synchronised

theorem Core.indexWindow_eq :
    core.indexWindow bounds = sortBy Player.indexKey (core.window bounds) :=
  eq_sortBy (indexWindow_perm keyed synchronised)
    (indexWindow_increasing keyed)

/-- The attempt sees the first players of the window in the order of the index,
and takes the eldest of those. -/
theorem Core.chosen_eq :
    core.chosen bounds = firstBy Player.seedKey matchSize
      (firstBy Player.indexKey maxCandidatesPerScan (core.window bounds)) := by
  rw [Core.chosen, Core.candidates, indexWindow_eq keyed synchronised]
  rfl

end Window

section Fifo

variable (consistent : Consistent core)
include consistent

theorem Core.indexKey_injOn :
    Set.InjOn Player.indexKey {player | player ∈ core.window bounds} := by
  intro player member other member' same
  have ids : player.id = other.id :=
    congrArg (fun key : Nat ×ₗ Uuid => (ofLex key).2) same
  exact eq_of_id consistent.toWellKeyed (mem_window.mp member).1
    (mem_window.mp member').1 ids

theorem Core.window_seedKey_injOn :
    Set.InjOn Player.seedKey {player | player ∈ core.window bounds} := by
  apply (seedKey_injOn consistent.toWellKeyed).mono
  intro player member
  rw [window_eq] at member
  exact (List.mem_filter.mp member).1

theorem Core.nodup_window : (core.window bounds).Nodup :=
  consistent.nodup_players.sublist List.filter_sublist

theorem Core.mem_window_scanned {seed : Player}
    (waiting : seed ∈ core.waiting) :
    seed ∈ core.window (core.scanned ctx seed) := by
  obtain ⟨⟨id, found⟩, waits⟩ := mem_waiting.mp waiting
  have bounded := consistent.bounded found
  refine mem_window.mpr ⟨⟨id, found⟩, waits, Nat.sub_le .., ?_⟩
  simp only [scanned, boundsWithin, maxSkillRating] at *
  omega

/-- The ten matched players are the eldest of the candidates that the index
walk sees. -/
theorem matched_of_success {seed : Player} {record : Match}
    (chosen : core.seed choice ctx state = some seed)
    (success : ((attemptMatch ctx state).exec semantics choice core).1.1 =
      .success record) :
    Matched ctx core ((attemptMatch ctx state).exec semantics choice core).2
      (core.scanned ctx seed) (core.chosen (core.scanned ctx seed)) record := by
  have attempts := Alone.frozen
    (@alone_attemptMatch Eq ctx state core _ consistent) choice
  generalize (attemptMatch ctx state).exec semantics choice core = outcome
    at attempts success
  obtain ⟨⟨result, state'⟩, core'⟩ := outcome
  cases attempts with
  | poolEmpty => cases success
  | insufficient => cases success
  | success selects scans enough after drifts =>
      cases success
      obtain rfl := drifts_eq.mp drifts
      obtain rfl := sometime_eq.mp scans
      have same := attempts_seed consistent choice selects
      rw [chosen] at same
      cases same
      exact matched_of_enough consistent enough after

/-- The eldest ten of the window are matched when the index walk sees them, as
it does when there are no more than the cap. The seed is one of them when it is
the eldest of all and the walk sees it. -/
theorem attemptMatch_fifo {seed : Player} {record : Match}
    (chosen : core.seed choice ctx state = some seed)
    (success : ((attemptMatch ctx state).exec semantics choice core).1.1 =
      .success record) :
    let window := core.window (core.scanned ctx seed)
    let seen := firstBy Player.indexKey maxCandidatesPerScan window
    let ten := firstBy Player.seedKey matchSize seen
    Matched ctx core ((attemptMatch ctx state).exec semantics choice core).2
        (core.scanned ctx seed) ten record ∧
      ((∀ player, player ∈ ten ↔
          player ∈ firstBy Player.seedKey matchSize window) ↔
        firstBy Player.seedKey matchSize window ⊆ seen) ∧
      (window.length ≤ maxCandidatesPerScan →
        ten = firstBy Player.seedKey matchSize window) ∧
      ((∀ player ∈ core.waiting, seed.seedKey ≤ player.seedKey) →
        (seed ∈ ten ↔ seed ∈ seen)) := by
  intro window seen ten
  have matched := matched_of_success consistent chosen success
  rw [Core.chosen_eq consistent.toWellKeyed consistent.synchronised] at matched
  have distinct : window.Nodup := Core.nodup_window consistent
  have keys := @Core.window_seedKey_injOn core (core.scanned ctx seed)
    consistent
  have within : seen ⊆ window := firstBy_subset _
  have keysSeen : Set.InjOn Player.seedKey {player | player ∈ seen} :=
    keys.mono fun _ member => within member
  refine ⟨matched, ?_, ?_, ?_⟩
  · exact mem_firstBy_iff_of_part distinct keys (nodup_firstBy distinct _)
      within fun p => countP_firstBy_le p _
  · intro few
    exact firstBy_congr (firstBy_perm few) (nodup_firstBy distinct _) keysSeen _
  · intro eldest
    have nobody : seen.countP (·.seedKey < seed.seedKey) = 0 := by
      rw [List.countP_eq_zero]
      intro player member below
      have waiting := within member
      rw [show window = _ from Core.window_eq] at waiting
      exact absurd (of_decide_eq_true below)
        (not_lt_of_ge (eldest player (List.mem_filter.mp waiting).1))
    rw [mem_firstBy_iff (nodup_firstBy distinct _) keysSeen, nobody]
    exact and_iff_left (Nat.zero_lt_succ _)

end Fifo

/-- The eldest player, and two hundred younger ones of a lower rating. -/
def crowd : List Player :=
  { address := 200, id := 201, skillRating := 1540, joinTimestamp := 0 } ::
    (List.range maxCandidatesPerScan).map fun i =>
      { address := i, id := Fin.ofNat _ (i + 1), skillRating := 1500,
        joinTimestamp := i + 1 }

set_option maxRecDepth 100000 in
theorem attemptMatch_fifo_ten :
    ∃ core seed record, core.seed inOrder soleWorker .new = some seed ∧
      ((attemptMatch soleWorker .new).exec semantics inOrder core).1.1 =
        .success record ∧
      Matched soleWorker core
        ((attemptMatch soleWorker .new).exec semantics inOrder core).2
        (core.scanned soleWorker seed)
        (firstBy Player.seedKey matchSize (firstBy Player.indexKey
          maxCandidatesPerScan (core.window (core.scanned soleWorker seed))))
        record := by
  have distinct : ((queueOf 10 1500).map (·.id)).Nodup := by decide +kernel
  have consistent : Consistent (.stocked ⟨1000, 1000⟩ (queueOf 10 1500)) :=
    .stocked _ distinct (by decide +kernel)
  have chosen := @seed_stocked soleWorker inOrder ⟨1000, 1000⟩ _ ⟨0, 1, 1500, 0⟩
    distinct ⟨by decide +kernel, by decide +kernel⟩
  obtain ⟨record, success⟩ := (success_iff consistent chosen).mpr (by
    rw [window_stocked _ distinct]
    decide +kernel)
  exact ⟨_, _, record, chosen, success,
    (attemptMatch_fifo consistent chosen success).1⟩

set_option maxRecDepth 100000 in
/-- The eldest player of all is beyond the cap and stays in the pool. -/
theorem exists_eldest_unmatched :
    ∃ core seed record, Consistent core ∧
      core.seed inOrder soleWorker .new = some seed ∧
      (∀ player ∈ core.waiting, seed.seedKey ≤ player.seedKey) ∧
      ((attemptMatch soleWorker .new).exec semantics inOrder core).1.1 =
        .success record ∧
      seed.id ∉ (record.teamA.players ++ record.teamB.players).map (·.id) := by
  have distinct : (crowd.map (·.id)).Nodup := by decide +kernel
  have consistent : Consistent (.stocked ⟨1000, 1000⟩ crowd) :=
    .stocked _ distinct (by decide +kernel)
  have eldest : Least Player.seedKey crowd (some ⟨200, 201, 1540, 0⟩) :=
    ⟨by decide +kernel, by decide +kernel⟩
  have chosen := @seed_stocked soleWorker inOrder ⟨1000, 1000⟩ _ _ distinct
    eldest
  have everybody := window_stocked ⟨1000, 1000⟩ distinct
    ((Core.stocked ⟨1000, 1000⟩ crowd).scanned soleWorker
      ⟨200, 201, 1540, 0⟩)
  obtain ⟨record, success⟩ := (success_iff consistent chosen).mpr (by
    rw [everybody]
    decide +kernel)
  have matched := matched_of_success consistent chosen success
  refine ⟨_, _, record, consistent, chosen, ?_, success, ?_⟩
  · rw [waiting_stocked _ distinct]
    exact eldest.2
  · intro published
    obtain ⟨player, member, same⟩ :=
      List.mem_map.mp (matched.teams.mem_iff.mp published)
    have windowed := matched.waiting player member
    have waits := (waiting_stocked ⟨1000, 1000⟩ distinct).symm ▸ eldest.1
    obtain rfl := Core.eq_of_id consistent.toWellKeyed
      (Core.mem_window.mp windowed).1 (Core.mem_waiting.mp waits).1 same
    rw [Core.chosen_eq consistent.toWellKeyed consistent.synchronised]
      at member
    have seen := firstBy_subset _ member
    rw [mem_firstBy_iff (Core.nodup_window consistent)
      (Core.indexKey_injOn consistent), everybody] at seen
    exact absurd seen.2 (by decide +kernel)

end Matchmaker
