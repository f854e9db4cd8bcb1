import Matchmaker.Sequential.Drift
import Matchmaker.Engine.Matcher
import Matchmaker.Stores

namespace Matchmaker

open Concurrent

/-! What the methods of a player and of the pool do when they run alone. -/

/-- The cores differ in their metrics at most. -/
def Core.Alike (core core' : Core) : Prop :=
  ∃ metrics, core' = { core with metrics }

theorem Core.Alike.refl (core : Core) : core.Alike core := ⟨core.metrics, rfl⟩

namespace PlayerCells

def claim (workerId nowMs : Nat) (cells : PlayerCells) : PlayerCells :=
  { cells with
    state := .claimed, claimedBy := workerId, claimTimestamp := nowMs }

def settle (now : Instant) (cells : PlayerCells) : PlayerCells :=
  { cells with state := .matched, matchedAt := some now }

end PlayerCells

namespace Core

variable {core : Core} {player other : Player} {players : List Player}
  {update update' : Player → PlayerCells → PlayerCells}

/-- Change the fields of some players. -/
def rewrite (core : Core) (players : List Player)
    (update : Player → PlayerCells → PlayerCells) : Core :=
  { core with cells := fun player =>
      if player ∈ players then update player (core.cells player)
      else core.cells player }

/-- Take some players out of both stores. -/
def withdraw (core : Core) (players : List Player) : Core :=
  { core with
    primary := players.foldl (fun primary player => primary.erase player.id)
      core.primary
    index := players.foldl (fun index player => index.erase player.ratingKey)
      core.index }

theorem setCells_setCells {first second : PlayerCells → PlayerCells} :
    (core.setCells player first).setCells player second =
      core.setCells player fun cells => second (first cells) := by
  simp [setCells]

@[simp] theorem cells_setCells_self {change : PlayerCells → PlayerCells} :
    (core.setCells player change).cells player =
      change (core.cells player) := by
  simp [setCells]

theorem cells_setCells_ne {change : PlayerCells → PlayerCells}
    (different : other ≠ player) :
    (core.setCells player change).cells other = core.cells other := by
  simp [setCells, different]

@[simp] theorem rewrite_nil : core.rewrite [] update = core := by
  simp [rewrite]

theorem rewrite_cons (apart : player ∉ players) :
    core.rewrite (player :: players) update =
      (core.setCells player (update player)).rewrite players update := by
  simp only [rewrite, setCells, Core.mk.injEq, and_true]
  funext other
  by_cases same : other = player
  · subst same
    simp [apart]
  · simp [same]

theorem rewrite_congr
    (same : ∀ player ∈ players, ∀ cells, update player cells =
      update' player cells) :
    core.rewrite players update = core.rewrite players update' := by
  simp only [rewrite, Core.mk.injEq, and_true]
  funext player
  split
  · rename_i member
    exact same player member _
  · rfl

theorem rewrite_rewrite :
    (core.rewrite players update).rewrite players update' =
      core.rewrite players fun player cells =>
        update' player (update player cells) := by
  simp only [rewrite, Core.mk.injEq, and_true]
  funext player
  split <;> rfl

theorem cells_rewrite_mem (member : player ∈ players) :
    (core.rewrite players update).cells player =
      update player (core.cells player) :=
  if_pos member

theorem cells_rewrite_not_mem (outside : player ∉ players) :
    (core.rewrite players update).cells player = core.cells player :=
  if_neg outside

theorem lookup_withdraw {id : Uuid} :
    (core.withdraw players).primary.lookup id =
      if id ∈ players.map (·.id) then none else core.primary.lookup id := by
  simp only [withdraw]
  induction players generalizing core with
  | nil => rfl
  | cons player rest induction =>
      rw [List.foldl_cons]
      apply (@induction { core with
        primary := core.primary.erase player.id }).trans
      simp only [lookup_erase_eq, List.map_cons, List.mem_cons]
      by_cases same : id = player.id <;> simp [same]

theorem index_withdraw {key : Nat × Uuid} :
    (core.withdraw players).index[key]? =
      if key ∈ players.map (·.ratingKey) then none else core.index[key]? := by
  simp only [withdraw]
  induction players generalizing core with
  | nil => rfl
  | cons player rest induction =>
      rw [List.foldl_cons]
      apply (@induction { core with
        index := core.index.erase player.ratingKey }).trans
      simp only [getElem?_indexErase, List.map_cons, List.mem_cons]
      by_cases same : key = player.ratingKey
      · simp [same]
      · simp [same, Ne.symm same]

end Core

section Alone

variable {passes : Clock → Clock → Prop} [IsPreorder Clock passes]
  {core : Core} {player : Player}

theorem turns_tryClaim (workerId nowMs : Nat)
    (waiting : (core.cells player).state = .waiting) :
    Turns passes core (player.tryClaim workerId nowMs) true
      (core.setCells player (.claim workerId nowMs)) := by
  have fields : core.setCells player (.claim workerId nowMs) =
      ((core.setCells player fun cells =>
        { cells with state := .claimed }).setCells player fun cells =>
        { cells with claimedBy := workerId }).setCells player fun cells =>
        { cells with claimTimestamp := nowMs } := by
    rw [Core.setCells_setCells, Core.setCells_setCells]
    rfl
  apply alone_access_bind.mpr
  intro clock passed choice
  have taken : (core.timed clock).perform choice
      (.exchange player (.tryClaim workerId nowMs)) =
        (true, (core.setCells player fun cells =>
          { cells with state := .claimed }).timed clock) :=
    if_pos waiting
  rw [taken, fields]
  apply alone_access_bind.mpr
  intro clock' passed' _
  apply alone_access_bind.mpr
  intro clock'' passed'' _
  exact ⟨rfl, clock'', trans_of passes passed
    (trans_of passes passed' passed''), rfl⟩

theorem alone_markMatched
    (claimed : (core.cells player).state = .claimed) :
    Alone passes core player.markMatched fun _ core' =>
      Sometime passes core.clock fun moment =>
        (core.setCells player (.settle moment.instant)).Drifts passes
          core' := by
  apply alone_access_bind.mpr
  intro moment passed _
  apply alone_access_bind.mpr
  intro clock passed' _
  apply alone_access_bind.mpr
  intro clock' passed'' choice
  have fields : core.setCells player (.settle moment.instant) =
      (core.setCells player fun cells =>
        { cells with matchedAt := some moment.instant }).setCells player
        fun cells => { cells with state := .matched } := by
    rw [Core.setCells_setCells]
    rfl
  have stored : ((core.setCells player fun cells =>
      { cells with matchedAt := some moment.instant }).cells
        player).state = .claimed := by
    rw [Core.cells_setCells_self]
    exact claimed
  have taken : ((core.setCells player fun cells =>
      { cells with matchedAt := some moment.instant }).timed clock').perform
        choice (.exchange player .markMatched) =
      (true, (core.setCells player (.settle moment.instant)).timed
        clock') := by
    rw [fields]
    exact if_pos stored
  refine ⟨moment, passed, ?_⟩
  refine ⟨clock', trans_of passes passed (trans_of passes passed' passed''), ?_⟩
  exact congrArg Prod.snd taken

theorem turns_remove
    (found : core.primary.lookup player.id = some player) :
    Turns passes core (PlayerPool.remove player.id) (some player)
      (core.withdraw [player]) := by
  apply alone_access_bind.mpr
  intro clock passed choice
  have taken : (core.timed clock).perform choice
      (.primaryRemove player.id) = (some player, { core.timed clock with
        primary := core.primary.erase player.id }) :=
    congrArg (·, { core.timed clock with
      primary := core.primary.erase player.id }) found
  rw [taken]
  apply alone_access_bind.mpr
  intro clock' passed' _
  exact ⟨rfl, clock', trans_of passes passed passed', rfl⟩

theorem turns_claimCandidates (workerId nowMs : Nat)
    {candidates claimed : List Player} (distinct : candidates.Nodup)
    (waiting : ∀ player ∈ candidates,
      (core.cells player).state = .waiting)
    (bound : claimed.length ≤ matchSize) :
    Turns passes core (claimCandidates workerId nowMs candidates claimed)
      (claimed ++ candidates.take (matchSize - claimed.length))
      (core.rewrite (candidates.take (matchSize - claimed.length)) fun _ =>
        .claim workerId nowMs) := by
  induction candidates generalizing core claimed with
  | nil =>
      rw [claimCandidates, List.take_nil, List.append_nil, Core.rewrite_nil]
      exact turns_pure claimed
  | cons player rest induction =>
      obtain ⟨apart, distinct⟩ := List.nodup_cons.mp distinct
      rw [claimCandidates]
      split
      · rename_i full
        simpa [full] using turns_pure claimed
      · rename_i room
        obtain ⟨left, remaining⟩ : ∃ left,
            matchSize - claimed.length = left + 1 :=
          ⟨matchSize - claimed.length - 1, by omega⟩
        have shorter : matchSize - (claimed ++ [player]).length = left := by
          rw [List.length_append, List.length_singleton]
          omega
        apply (turns_tryClaim workerId nowMs
          (waiting player (List.mem_cons_self ..))).bind
        intro clock passed
        rw [if_pos rfl]
        refine (induction distinct ?_ ?_).mono ?_
        · intro other member
          rw [Core.timed_cells, Core.cells_setCells_ne]
          · exact waiting other (List.mem_cons_of_mem _ member)
          · rintro rfl
            exact apart member
        · rw [List.length_append, List.length_singleton]
          omega
        · intro _ core' found
          obtain ⟨rfl, clock', passed', rfl⟩ := found
          rw [shorter, remaining, List.take_succ_cons,
            Core.rewrite_cons fun member =>
              apart (List.mem_of_mem_take member)]
          exact ⟨by simp, clock', trans_of passes passed passed', rfl⟩

theorem alone_markAll {players : List Player} (distinct : players.Nodup)
    (claimed : ∀ player ∈ players, (core.cells player).state = .claimed) :
    Alone passes core (forM players Player.markMatched) fun _ core' =>
      ∃ matchedAt : Player → Instant,
        (∀ player ∈ players, Sometime passes core.clock fun moment =>
          matchedAt player = moment.instant) ∧
        (core.rewrite players fun player =>
          .settle (matchedAt player)).Drifts passes core' := by
  induction players generalizing core with
  | nil => exact ⟨fun _ => 0, nofun, by simpa using .refl core⟩
  | cons player rest induction =>
      obtain ⟨apart, distinct⟩ := List.nodup_cons.mp distinct
      rw [List.forM_cons]
      apply (alone_markMatched
        (claimed player (List.mem_cons_self ..))).bind
      intro _ _ found
      obtain ⟨moment, passed, clock, passed', rfl⟩ := found
      refine (induction distinct ?_).mono ?_
      · intro other member
        rw [Core.timed_cells, Core.cells_setCells_ne]
        · exact claimed other (List.mem_cons_of_mem _ member)
        · rintro rfl
          exact apart member
      · intro _ _ found
        obtain ⟨matchedAt, moments, clock', passed'', rfl⟩ := found
        have others : ∀ other ∈ rest, Function.update matchedAt player
            moment.instant other = matchedAt other := by
          intro other member
          rw [Function.update_of_ne]
          rintro rfl
          exact apart member
        refine ⟨Function.update matchedAt player moment.instant, ?_, clock',
          trans_of passes passed' passed'', ?_⟩
        · intro other member
          rcases List.mem_cons.mp member with rfl | member
          · exact ⟨moment, passed, Function.update_self ..⟩
          · rw [others other member]
            exact (moments other member).later passed'
        · rw [Core.rewrite_cons apart, Function.update_self]
          have same : (core.setCells player
              (.settle moment.instant)).rewrite rest (fun other =>
                .settle (matchedAt other)) = (core.setCells player
              (.settle moment.instant)).rewrite rest fun other =>
                .settle (Function.update matchedAt player moment.instant
                  other) := by
            apply Core.rewrite_congr
            intro other member cells
            rw [others other member]
          show ((core.setCells player _).rewrite rest _).timed clock' = _
          rw [same]

theorem turns_removeAll {players : List Player} (distinct : players.Nodup)
    (found : ∀ player ∈ players,
      core.primary.lookup player.id = some player) :
    Turns passes core
      (forM players fun player => do
        let _ ← PlayerPool.remove player.id : Task PUnit)
      .unit (core.withdraw players) := by
  induction players generalizing core with
  | nil => exact turns_pure _
  | cons player rest induction =>
      obtain ⟨apart, distinct⟩ := List.nodup_cons.mp distinct
      rw [List.forM_cons, bind_assoc]
      apply (turns_remove (found player (List.mem_cons_self ..))).bind
      intro clock passed
      refine (induction distinct ?_).mono ?_
      · intro other member
        rw [Core.timed_primary, Core.lookup_withdraw, if_neg]
        · exact found other (List.mem_cons_of_mem _ member)
        · intro same
          have ids : other.id = player.id := by simpa using same
          have here := found other (List.mem_cons_of_mem _ member)
          rw [ids, found player (List.mem_cons_self ..)] at here
          cases here
          exact apart member
      · intro _ _ given
        obtain ⟨rfl, clock', passed', rfl⟩ := given
        exact ⟨rfl, clock', trans_of passes passed passed', rfl⟩

end Alone

end Matchmaker
