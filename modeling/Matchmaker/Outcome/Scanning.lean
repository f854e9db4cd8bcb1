import Matchmaker.Outcome.Fifo
import Matchmaker.Sequential.Sessions

namespace Matchmaker

open Concurrent Ranking

/-! The walk over the rating index, against a filter over the primary store. -/

/-- The scan is this list, cut at the cap in the order of the index. -/
structure Capped (scan all : List Player) : Prop where
  order : scan.Sublist all
  nodup : scan.Nodup
  length : scan.length = min maxCandidatesPerScan all.length
  whole : all.length ≤ maxCandidatesPerScan → scan = all
  first : ∀ player, player ∈ scan ↔ player ∈ all ∧
    all.countP (·.indexKey < player.indexKey) < maxCandidatesPerScan

section Candidates

variable {core : Core} {bounds : Nat × Nat} (consistent : Consistent core)
include consistent

theorem Core.candidates_eq :
    core.candidates bounds = sortBy Player.seedKey
      (firstBy Player.indexKey maxCandidatesPerScan (core.window bounds)) := by
  rw [Core.candidates, indexWindow_eq consistent.toWellKeyed
    consistent.synchronised]
  rfl

theorem Core.candidates_capped :
    Capped (core.candidates bounds)
      (sortBy Player.seedKey (core.window bounds)) := by
  have keyed := consistent.toWellKeyed
  have distinct := @Core.nodup_window core bounds consistent
  have keys := @Core.window_seedKey_injOn core bounds consistent
  have sorted := sortBy_perm Player.seedKey (core.window bounds)
  have inside : firstBy Player.indexKey maxCandidatesPerScan
      (core.window bounds) ⊆ core.window bounds := firstBy_subset _
  have distinctFirst := @nodup_firstBy _ _ _ Player.indexKey _ distinct
    maxCandidatesPerScan
  refine {
    order := ?_
    nodup := Core.nodup_candidates keyed
    length := ?_
    whole := ?_
    first := ?_ }
  · rw [Core.candidates_eq consistent]
    exact sortBy_sublist distinct keys distinctFirst inside
  · rw [sorted.length_eq]
    exact Core.length_candidates keyed consistent.synchronised
  · intro few
    rw [sorted.length_eq] at few
    rw [Core.candidates_eq consistent]
    apply eq_sortBy ((sortBy_perm _ _).trans (firstBy_perm few))
    exact sortBy_increasing distinctFirst (keys.mono fun _ member =>
      inside member)
  · intro player
    rw [Core.candidates_eq consistent, (sortBy_perm _ _).mem_iff,
      mem_firstBy_iff distinct (Core.indexKey_injOn consistent),
      sorted.mem_iff, sorted.countP_eq]

end Candidates

variable {passes : Clock → Clock → Prop} {config : Config} {limit : Nat}

theorem Sessions.resting [IsPreorder Clock passes] {workers last : Workers}
    {core final : Core} {log : SessionLog} (resting : Resting core)
    (sessions : Sessions passes config limit workers core log last final) :
    Resting final :=
  Sessions.induct (motive := fun _ _ _ _ final => Resting final)
    (fun _ _ resting => resting)
    (fun _ _ _ _ _ _ _ _ _ _ _ induction => induction) resting sessions

/-- The scan of a pool that complete calls have left, after some players have
changed their state, as by being claimed. -/
theorem rangeScan_capped [IsPreorder Clock passes] {clock : Clock}
    {log : SessionLog} {last : Workers} {final : Core}
    (sessions : Sessions passes config limit (fun _ => .new) (.new clock) log
      last final)
    (players : List Player) (update : Player → PlayerCells → PlayerCells)
    {bounds : Nat × Nat} (ordered : bounds.1 ≤ bounds.2)
    (limited : bounds.2 ≤ maxSkillRating) (choice : Choice) :
    let core := final.rewrite players update
    Capped
      ((PlayerPool.rangeScan bounds.1 bounds.2).exec semantics choice core).1
      (sortBy Player.seedKey (core.window bounds)) := by
  intro core
  have resting := Sessions.resting (.new clock) sessions
  have consistent : Consistent core := resting.toConsistent.stores rfl rfl
  have found := Alone.frozen (@PlayerPool.finds_rangeScan Eq _ _ bounds
    consistent.toWellKeyed consistent.synchronised (ordered.trans limited)
    limited) choice
  rw [found.1]
  exact Core.candidates_capped consistent

/-- More players join than a scan returns, and one of them leaves. -/
def crowdedRequests : List Request :=
  (List.range 203).map (fun i =>
    .enqueue (Fin.ofNat _ (i + 1)) (1500 + i % 3)) ++ [.cancel 3]

set_option maxRecDepth 100000 in
/-- Another one of them is claimed, and the scan leaves out one of the rest. -/
theorem rangeScan_capped_crowded :
    ∃ log last final,
      Sessions Eq .default 1000 (fun _ => .new) (.new ⟨0, 1000⟩) log last
        final ∧
      log.map (·.request) = crowdedRequests ∧
      ((final.rewrite [⟨0, 1, 1500, 0⟩] fun _ => .claim 1 1000).window
        (1500, 1502)).length = 201 ∧
      Capped
        ((PlayerPool.rangeScan 1500 1502).exec semantics inOrder
          (final.rewrite [⟨0, 1, 1500, 0⟩] fun _ => .claim 1 1000)).1
        (sortBy Player.seedKey
          ((final.rewrite [⟨0, 1, 1500, 0⟩] fun _ => .claim 1 1000).window
            (1500, 1502))) := by
  have sessions := @Program.serial_serially _ _ _ _ semantics
    (Core.Drifts Eq) (serve .default 1000) Core.Drifts.refl inOrder
    crowdedRequests (fun _ => .new) (.new ⟨0, 1000⟩)
  refine ⟨_, _, _, sessions, Program.requests_serially .., ?_,
    @rangeScan_capped Eq _ _ _ _ _ _ _ sessions [⟨0, 1, 1500, 0⟩]
      (fun _ => .claim 1 1000) (1500, 1502) (by decide) (by decide) inOrder⟩
  decide +kernel

end Matchmaker
