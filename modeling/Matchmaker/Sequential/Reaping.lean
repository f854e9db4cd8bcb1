import Matchmaker.Sequential.Forming
import Matchmaker.Workers

namespace Matchmaker

open Concurrent

/-! What a reaper tick does when it runs alone. -/

namespace PlayerCells

/-- The claim looks stale to a reaper that started at this time. -/
def stale (nowMs staleClaimTimeoutMs : Nat) (cells : PlayerCells) : Bool :=
  cells.state = .claimed && cells.claimTimestamp ≠ 0 &&
    staleClaimTimeoutMs < nowMs - cells.claimTimestamp

def recover (cells : PlayerCells) : PlayerCells :=
  { cells with state := .waiting, claimedBy := 0, claimTimestamp := 0 }

end PlayerCells

namespace Core

def stale (core : Core) (nowMs staleClaimTimeoutMs : Nat)
    (player : Player) : Bool :=
  (core.cells player).stale nowMs staleClaimTimeoutMs

/-- The core after a tick that started at this time. -/
def reap (core : Core) (nowMs staleClaimTimeoutMs : Nat) : Core :=
  let stale := core.primary.players.filter
    (core.stale nowMs staleClaimTimeoutMs)
  { core.rewrite stale fun _ => .recover with
    metrics := core.metrics.fetchAdd stale.length .totalStaleClaimsRecovered }

end Core

variable {passes : Clock → Clock → Prop} [IsPreorder Clock passes]
  {core : Core} {nowMs staleClaimTimeoutMs : Nat} {player : Player}

theorem turns_reset (claimed : (core.cells player).state = .claimed) :
    Turns passes core
      (do
        let _ ← access (.loadClaimedBy player)
        if ← access (.exchange player (.reaperReset nowMs)) then
          access (.storeClaimedBy player 0)
          access (.storeClaimTimestamp player 0)
          return true
        else
          return false)
      true (core.setCells player .recover) := by
  have asked : Finds passes core (access (.loadClaimedBy player))
      fun _ => True :=
    alone_access.mpr fun clock passed _ => ⟨trivial, clock, passed, rfl⟩
  apply asked.bind
  intro _ clock _ passed
  apply alone_access_bind.mpr
  rintro clock₁ passed₁ choice
  have taken : ((core.timed clock).timed clock₁).perform choice
      (.exchange player (.reaperReset nowMs)) =
        (true, (core.setCells player fun cells =>
          { cells with state := .waiting }).timed clock₁) :=
    if_pos claimed
  rw [taken, if_pos rfl]
  apply alone_access_bind.mpr
  rintro clock₂ passed₂ _
  apply alone_access_bind.mpr
  rintro clock₃ passed₃ _
  have fields : core.setCells player .recover =
      ((core.setCells player fun cells =>
        { cells with state := .waiting }).setCells player fun cells =>
        { cells with claimedBy := 0 }).setCells player fun cells =>
        { cells with claimTimestamp := 0 } := by
    rw [Core.setCells_setCells, Core.setCells_setCells]
    rfl
  rw [fields]
  exact ⟨rfl, clock₃, trans_of passes (trans_of passes passed passed₁)
    (trans_of passes passed₂ passed₃), rfl⟩

theorem turns_reapPlayer :
    Turns passes core (reapPlayer nowMs staleClaimTimeoutMs player)
      (core.stale nowMs staleClaimTimeoutMs player)
      (if core.stale nowMs staleClaimTimeoutMs player then
        core.setCells player .recover else core) := by
  have loaded : Finds passes core player.loadState
      (· = (core.cells player).state) :=
    alone_access.mpr fun clock passed _ => ⟨rfl, clock, passed, rfl⟩
  apply loaded.bind
  rintro _ clock rfl passed
  split
  · rename_i idle
    have fresh : core.stale nowMs staleClaimTimeoutMs player = false := by
      simp [Core.stale, PlayerCells.stale, idle]
    rw [fresh]
    exact ⟨rfl, clock, passed, rfl⟩
  · rename_i claimed
    have claimed := not_not.mp claimed
    have stamped : Finds passes (core.timed clock)
        (access (.loadClaimTimestamp player))
        (· = (core.cells player).claimTimestamp) :=
      alone_access.mpr fun clock passed _ => ⟨rfl, clock, passed, rfl⟩
    apply stamped.bind
    rintro _ clock₁ rfl passed₁
    have later := trans_of passes passed passed₁
    split
    · rename_i unstamped
      have fresh : core.stale nowMs staleClaimTimeoutMs player = false := by
        simp [Core.stale, PlayerCells.stale, unstamped]
      rw [fresh]
      exact ⟨rfl, clock₁, later, rfl⟩
    split
    · rename_i stamp old
      have stale : core.stale nowMs staleClaimTimeoutMs player = true := by
        simp [Core.stale, PlayerCells.stale, claimed, stamp, old]
      rw [stale, if_pos rfl]
      refine Program.Ensures.mono (turns_reset claimed) ?_
      intro _ _ found
      obtain ⟨rfl, clock₂, passed₂, rfl⟩ := found
      exact ⟨rfl, clock₂, trans_of passes later passed₂, rfl⟩
    · rename_i young
      have fresh : core.stale nowMs staleClaimTimeoutMs player = false := by
        simp [Core.stale, PlayerCells.stale, young]
      rw [fresh]
      exact ⟨rfl, clock₁, later, rfl⟩

theorem turns_reapPlayers {players : List Player} (distinct : players.Nodup)
    (recovered : Nat) :
    Turns passes core
      (reapPlayers nowMs staleClaimTimeoutMs players recovered)
      (recovered +
        (players.filter (core.stale nowMs staleClaimTimeoutMs)).length)
      (core.rewrite (players.filter (core.stale nowMs staleClaimTimeoutMs))
        fun _ => .recover) := by
  induction players generalizing core recovered with
  | nil =>
      rw [reapPlayers, List.filter_nil, Core.rewrite_nil]
      exact turns_pure recovered
  | cons player rest induction =>
      obtain ⟨apart, distinct⟩ := List.nodup_cons.mp distinct
      have others : rest.filter ((core.setCells player .recover).stale nowMs
          staleClaimTimeoutMs) =
            rest.filter (core.stale nowMs staleClaimTimeoutMs) := by
        apply List.filter_congr
        intro other member
        rw [Core.stale, Core.cells_setCells_ne]
        · rfl
        · rintro rfl
          exact apart member
      rw [reapPlayers]
      apply turns_reapPlayer.bind
      intro clock passed
      have passed : passes core.clock clock := by
        split at passed <;> exact passed
      rw [List.filter_cons]
      split
      · apply (induction distinct (recovered + 1)).mono
        intro _ _ found
        obtain ⟨rfl, clock₁, passed₁, rfl⟩ := found
        refine ⟨?_, clock₁, trans_of passes passed passed₁, ?_⟩
        · show recovered + 1 + (rest.filter ((core.setCells player
            .recover).stale nowMs staleClaimTimeoutMs)).length = _
          rw [others, List.length_cons]
          omega
        · rw [Core.rewrite_cons fun member =>
            apart (List.mem_of_mem_filter member), ← others]
          rfl
      · apply (induction distinct recovered).mono
        intro _ _ found
        obtain ⟨rfl, clock₁, passed₁, rfl⟩ := found
        exact ⟨rfl, clock₁, trans_of passes passed passed₁, rfl⟩

theorem alone_reaperTick (keyed : WellKeyed core) :
    Alone passes core (reaperTick staleClaimTimeoutMs) fun _ core' =>
      Sometime passes core.clock fun moment =>
        (core.reap moment.unixMs staleClaimTimeoutMs).Drifts passes core' := by
  apply alone_access_bind.mpr
  intro moment passed _
  apply alone_access_bind.mpr
  rintro clock passed₁ choice
  have walk := choice.walk_perm core.primary.players
  have same := walk.filter (core.stale moment.unixMs staleClaimTimeoutMs)
  have reaped : core.rewrite ((choice.walk core.primary.players).filter
      (core.stale moment.unixMs staleClaimTimeoutMs)) (fun _ => .recover) =
        core.rewrite (core.primary.players.filter
          (core.stale moment.unixMs staleClaimTimeoutMs)) fun _ => .recover := by
    simp only [Core.rewrite, same.mem_iff]
  apply Turns.bind (turns_reapPlayers
    (walk.nodup_iff.mpr keyed.nodup_players) 0)
  rintro clock₂ passed₂
  have later := trans_of passes passed (trans_of passes passed₁ passed₂)
  rw [Nat.zero_add]
  refine (?_ : Alone passes ((core.rewrite ((choice.walk
    core.primary.players).filter (core.stale moment.unixMs
      staleClaimTimeoutMs)) fun _ => .recover).timed clock₂)
      (if 0 < ((choice.walk core.primary.players).filter (core.stale
        moment.unixMs staleClaimTimeoutMs)).length then _ else _) _)
  rw [reaped, same.length_eq]
  split
  · apply (counts_fetchAdd _ _ _).mono
    intro _ _ found
    obtain ⟨-, clock₃, passed₃, rfl⟩ := found
    refine ⟨moment, passed, clock₃, trans_of passes later passed₃, ?_⟩
    rw [Core.reap, ← same.length_eq]
    rfl
  · rename_i nobody
    have none : (core.primary.players.filter (core.stale moment.unixMs
        staleClaimTimeoutMs)).length = 0 := by omega
    refine ⟨moment, passed, clock₂, later, ?_⟩
    rw [Core.reap, none]
    rfl

end Matchmaker
