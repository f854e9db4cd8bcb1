import Matchmaker.Ranking.First
import Matchmaker.Ranking.Least
import Matchmaker.Sequential.Methods

namespace Matchmaker

open Concurrent Ranking

/-! What the walks over the pool find when they run alone. -/

def Core.waits (core : Core) (player : Player) : Bool :=
  (core.cells player).state = .waiting

/-- The players of the pool that are waiting. -/
def Core.waiting (core : Core) : List Player :=
  core.primary.players.filter core.waits

/-- The waiting players of the pool whose rating lies within the bounds. -/
def Core.window (core : Core) (bounds : Nat × Nat) : List Player :=
  core.primary.players.filter fun player => core.waits player &&
    (bounds.1 ≤ player.skillRating && player.skillRating ≤ bounds.2)

/-- The same players in the order of the index. -/
def Core.indexWindow (core : Core) (bounds : Nat × Nat) : List Player :=
  ((core.index.toList.filter fun entry =>
    (compareKeys (bounds.1, uuidNil) entry.1).isLE &&
      (compareKeys entry.1 (bounds.2, uuidMax)).isLE).map (·.2)).filter
        core.waits

def Player.outside (bounds : Nat × Nat) (player : Player) : Bool :=
  !(bounds.1 ≤ player.skillRating && player.skillRating ≤ bounds.2)

theorem Player.seedKey_injective {player other : Player}
    (same : player.seedKey = other.seedKey) : player.id = other.id := by
  have parts := congrArg (fun key => (ofLex (ofLex key).2).2) same
  exact parts

section Alone

namespace PlayerPool

variable {passes : Clock → Clock → Prop} [IsPreorder Clock passes]
  {core : Core}

theorem finds_filterWaiting (admits : Player → Bool) (players : List Player) :
    Finds passes core (filterWaiting admits players)
      (· = players.filter fun player =>
        core.waits player && admits player) := by
  induction players generalizing core with
  | nil => exact finds_pure rfl
  | cons player rest induction =>
      have asked : Finds passes core player.isWaiting
          (· = core.waits player) := by
        apply alone_access_bind.mpr
        intro clock passed _
        exact ⟨rfl, clock, passed, rfl⟩
      apply asked.bind'
      rintro _ clock rfl _
      apply induction.bind'
      rintro _ _ rfl _
      rw [List.filter_cons]
      exact finds_pure rfl

theorem least_minBySeedKey (players : List Player) :
    Least Player.seedKey players (minBySeedKey players) := by
  cases players with
  | nil => rfl
  | cons first rest =>
      exact ⟨@leastFrom_mem _ _ _ Player.seedKey rest first,
        @leastFrom_le _ _ _ Player.seedKey rest first⟩

theorem finds_oldestWaiting :
    Finds passes core oldestWaiting
      (Least Player.seedKey core.waiting) := by
  apply finds_access_bind (fun _ _ => rfl)
  intro clock _ choice
  apply (finds_filterWaiting (fun _ => true) _).bind'
  rintro _ _ rfl _
  refine finds_pure ((least_minBySeedKey _).perm ?_)
  simp only [Bool.and_true]
  exact (choice.walk_perm core.primary.players).filter _

theorem finds_oldestWaitingExcludingRange (bounds : Nat × Nat) :
    Finds passes core (oldestWaitingExcludingRange bounds.1 bounds.2)
      (Least Player.seedKey
        (core.waiting.filter (Player.outside bounds))) := by
  apply finds_access_bind (fun _ _ => rfl)
  intro clock _ choice
  apply (finds_filterWaiting (Player.outside bounds) _).bind'
  rintro _ _ rfl _
  refine finds_pure ((least_minBySeedKey _).perm ?_)
  rw [Core.waiting, List.filter_filter]
  simp only [Bool.and_comm]
  exact (choice.walk_perm core.primary.players).filter _

theorem finds_scanEntries {entries candidates : List Player}
    (alive : ∀ player ∈ entries,
      core.primary.lookup player.id = some player)
    (room : candidates.length < maxCandidatesPerScan) :
    Finds passes core (scanEntries entries candidates)
      (· = candidates ++ (entries.filter core.waits).take
        (maxCandidatesPerScan - candidates.length)) := by
  induction entries generalizing core candidates with
  | nil => exact finds_pure (by simp)
  | cons player rest induction =>
      have upgraded : Finds passes core (access (.upgrade player))
          (· = true) := by
        have found := alive player (List.mem_cons_self ..)
        refine alone_access.mpr fun clock passed choice => ⟨?_, clock, passed, rfl⟩
        show (decide (core.primary.lookup player.id = some player) || _) = true
        simp [found]
      have others : ∀ player ∈ rest,
          core.primary.lookup player.id = some player :=
        fun other member => alive other (List.mem_cons_of_mem _ member)
      rw [scanEntries]
      apply upgraded.bind'
      rintro _ clock rfl _
      rw [if_neg (by simp)]
      have loaded : Finds passes (core.timed clock) player.loadState
          (· = (core.cells player).state) :=
        alone_access.mpr fun clock passed _ => ⟨rfl, clock, passed, rfl⟩
      apply loaded.bind'
      rintro _ clock' rfl _
      by_cases waiting : (core.cells player).state = .waiting
      · have kept : core.waits player = true := decide_eq_true waiting
        obtain ⟨left, remaining⟩ : ∃ left,
            maxCandidatesPerScan - candidates.length = left + 1 :=
          ⟨maxCandidatesPerScan - candidates.length - 1, by omega⟩
        rw [if_neg (not_not.mpr waiting), List.filter_cons_of_pos kept,
          remaining, List.take_succ_cons, List.length_append,
          List.length_singleton]
        split
        · have last : left = 0 := by omega
          rw [last, List.take_zero]
          exact finds_pure rfl
        · have shorter : maxCandidatesPerScan -
              (candidates ++ [player]).length = left := by
            rw [List.length_append, List.length_singleton]
            omega
          have walked := @induction (core.timed clock') (candidates ++ [player])
            others (by rw [List.length_append, List.length_singleton]; omega)
          rw [shorter, List.append_assoc] at walked
          exact walked
      · have skipped : ¬ core.waits player = true :=
          fun waits => waiting (of_decide_eq_true waits)
        rw [if_pos waiting, List.filter_cons_of_neg skipped]
        exact @induction (core.timed clock') candidates others room

end PlayerPool

end Alone

section Window

variable {core : Core} {bounds : Nat × Nat} {player : Player}

theorem Core.mem_waiting :
    player ∈ core.waiting ↔
      (∃ id, core.primary.lookup id = some player) ∧
        (core.cells player).state = .waiting := by
  simp [Core.waiting, Core.waits, Primary.mem_players]

theorem Core.mem_window :
    player ∈ core.window bounds ↔
      (∃ id, core.primary.lookup id = some player) ∧
        (core.cells player).state = .waiting ∧
        bounds.1 ≤ player.skillRating ∧ player.skillRating ≤ bounds.2 := by
  simp [Core.window, Core.waits, Primary.mem_players]

theorem Core.window_eq :
    core.window bounds =
      core.waiting.filter fun player => !player.outside bounds := by
  rw [Core.window, Core.waiting, List.filter_filter]
  simp only [Player.outside, Bool.not_not, Bool.and_comm]

theorem Core.nodup_waiting (keyed : WellKeyed core) : core.waiting.Nodup :=
  keyed.nodup_players.sublist List.filter_sublist

theorem Core.eq_of_id (keyed : WellKeyed core) {player other : Player}
    (found : ∃ id, core.primary.lookup id = some player)
    (found' : ∃ id, core.primary.lookup id = some other)
    (same : player.id = other.id) : player = other := by
  obtain ⟨id, found⟩ := found
  obtain ⟨id', found'⟩ := found'
  rw [keyed.primary found, keyed.primary found'] at same
  rw [same, found'] at found
  cases found
  rfl

theorem Core.seedKey_injOn (keyed : WellKeyed core) :
    Set.InjOn Player.seedKey {player | player ∈ core.waiting} := by
  intro player member other member' same
  exact eq_of_id keyed (mem_waiting.mp member).1 (mem_waiting.mp member').1
    (Player.seedKey_injective same)

theorem Core.mem_indexWindow (keyed : WellKeyed core)
    (synchronised : Synchronised core) :
    player ∈ core.indexWindow bounds ↔ player ∈ core.window bounds := by
  rw [Core.mem_window, Core.indexWindow, List.mem_filter, mem_indexRange]
  have lower : uuidNil ≤ player.id := Fin.zero_le _
  have upper : player.id ≤ uuidMax := Fin.le_last _
  have found : core.index[player.ratingKey]? =
      (core.primary.lookup player.id).filter
        (·.skillRating = player.skillRating) :=
    synchronised player.skillRating player.id
  constructor
  · intro given
    obtain ⟨⟨key, present, above, below⟩, waits⟩ := given
    obtain rfl := keyed.index present
    rw [found, Option.filter_eq_some_iff] at present
    rw [compareKeys_isLE] at above below
    simp only [Player.ratingKey] at above below
    exact ⟨⟨player.id, present.1⟩, of_decide_eq_true waits, by omega,
      by omega⟩
  · intro given
    obtain ⟨⟨id, present⟩, waiting, above, below⟩ := given
    obtain rfl := keyed.primary present
    refine ⟨⟨player.ratingKey, ?_, ?_, ?_⟩, decide_eq_true waiting⟩
    · rw [found, present]
      simp
    · rw [compareKeys_isLE]
      exact (Nat.lt_or_eq_of_le above).imp_right fun same => ⟨same, lower⟩
    · rw [compareKeys_isLE]
      exact (Nat.lt_or_eq_of_le below).imp_right fun same => ⟨same, upper⟩

theorem Core.nodup_indexWindow (keyed : WellKeyed core) :
    (core.indexWindow bounds).Nodup :=
  (keyed.nodup_values.sublist (List.filter_sublist.map _)).sublist
    List.filter_sublist

theorem Core.indexWindow_perm (keyed : WellKeyed core)
    (synchronised : Synchronised core) :
    (core.indexWindow bounds).Perm (core.window bounds) := by
  apply (List.perm_ext_iff_of_nodup (nodup_indexWindow keyed)
    (keyed.nodup_players.sublist List.filter_sublist)).mpr
  intro player
  exact mem_indexWindow keyed synchronised

end Window

/-- The candidates of an index walk over a synchronised pool: the first
waiting players in the order of the index, up to the cap, sorted by age. -/
def Core.candidates (core : Core) (bounds : Nat × Nat) : List Player :=
  PlayerPool.sortCandidates
    ((core.indexWindow bounds).take maxCandidatesPerScan)

section Candidates

variable {core : Core} {bounds : Nat × Nat}

theorem Core.candidates_perm (bounds : Nat × Nat) :
    (core.candidates bounds).Perm
      ((core.indexWindow bounds).take maxCandidatesPerScan) :=
  List.perm_insertionSort _ _

theorem Core.nodup_candidates (keyed : WellKeyed core) :
    (core.candidates bounds).Nodup :=
  (candidates_perm bounds).nodup_iff.mpr
    ((nodup_indexWindow keyed).sublist (List.take_sublist ..))

theorem Core.candidates_subset (keyed : WellKeyed core)
    (synchronised : Synchronised core) {player : Player}
    (member : player ∈ core.candidates bounds) :
    player ∈ core.window bounds := by
  rw [← mem_indexWindow keyed synchronised]
  exact List.mem_of_mem_take ((candidates_perm bounds).mem_iff.mp member)

theorem Core.length_candidates (keyed : WellKeyed core)
    (synchronised : Synchronised core) :
    (core.candidates bounds).length =
      min maxCandidatesPerScan (core.window bounds).length := by
  rw [(candidates_perm bounds).length_eq, List.length_take,
    (indexWindow_perm keyed synchronised).length_eq]

end Candidates

/-- What the scan makes of its bounds. -/
def clamped (bounds : Nat × Nat) : Nat × Nat :=
  (min bounds.1 maxSkillRating, min bounds.2 maxSkillRating)

theorem clamped_eq {bounds : Nat × Nat} (lower : bounds.1 ≤ maxSkillRating)
    (upper : bounds.2 ≤ maxSkillRating) : clamped bounds = bounds := by
  rw [clamped, Nat.min_eq_left lower, Nat.min_eq_left upper]

theorem PlayerPool.finds_clampedScan {passes : Clock → Clock → Prop}
    [IsPreorder Clock passes] {core : Core} {bounds : Nat × Nat}
    (keyed : WellKeyed core) (synchronised : Synchronised core) :
    Finds passes core (rangeScan bounds.1 bounds.2)
      (· = core.candidates (clamped bounds)) := by
  apply finds_access_bind (fun _ _ => rfl)
  intro clock _ choice
  refine (@PlayerPool.finds_scanEntries passes _ (core.timed clock) _ [] ?_
    (by decide)).bind' ?_
  · intro player member
    obtain ⟨key, present, _⟩ := mem_indexRange.mp member
    obtain rfl := keyed.index present
    have found : (core.timed clock).index[player.ratingKey]? =
        (core.primary.lookup player.id).filter
          (·.skillRating = player.skillRating) :=
      synchronised player.skillRating player.id
    rw [found, Option.filter_eq_some_iff] at present
    exact present.1
  · rintro _ _ rfl _
    exact finds_pure rfl

theorem PlayerPool.finds_rangeScan {passes : Clock → Clock → Prop}
    [IsPreorder Clock passes] {core : Core} {bounds : Nat × Nat}
    (keyed : WellKeyed core) (synchronised : Synchronised core)
    (lower : bounds.1 ≤ maxSkillRating) (upper : bounds.2 ≤ maxSkillRating) :
    Finds passes core (rangeScan bounds.1 bounds.2)
      (· = core.candidates bounds) := by
  have scanned := @finds_clampedScan passes _ _ bounds keyed synchronised
  rw [clamped_eq lower upper] at scanned
  exact scanned

end Matchmaker
