import Matchmaker.Protocol.Runs

namespace Matchmaker

open Concurrent

/-! How an operation moves its caller on with a player. -/

/-- The operation exchanges the state of the player or writes a claim field. -/
def Operation.Touches (player : Player) :
    (operation : Operation) → operation.Result → Bool
  | .exchange other _, success => other = player && success
  | .storeClaimedBy other _, _ => other = player
  | .storeClaimTimestamp other _, _ => other = player
  | _, _ => false

inductive Moves (player : Player) :
    (operation : Operation) → operation.Result → Phase → Phase → Prop
  | claim (workerId nowMs : Nat) :
      Moves player (.exchange player (.tryClaim workerId nowMs)) true
        .idle (.claiming workerId nowMs)
  | stamp (workerId nowMs : Nat) :
      Moves player (.storeClaimedBy player workerId) ()
        (.claiming workerId nowMs) (.stamping workerId nowMs)
  | hold (workerId nowMs : Nat) :
      Moves player (.storeClaimTimestamp player nowMs) ()
        (.stamping workerId nowMs) (.held workerId nowMs)
  | unclaim (workerId nowMs : Nat) :
      Moves player (.storeClaimedBy player 0) ()
        (.held workerId nowMs) .unclaiming
  | unstamp :
      Moves player (.storeClaimTimestamp player 0) () .unclaiming .releasing
  | release (success : Bool) :
      Moves player (.exchange player .releaseClaim) success
        .releasing .released
  | settle (workerId nowMs : Nat) (now : Instant) :
      Moves player (.storeMatchedAt player now) ()
        (.held workerId nowMs) .marking
  | mark : Moves player (.exchange player .markMatched) true .marking .marked
  | miss : Moves player (.exchange player .markMatched) false .marking .missed
  | evict : Moves player (.exchange player .tryEvict) true .idle .evicted
  | suspect (claimTs : Nat) :
      Moves player (.loadClaimTimestamp player) claimTs
        .idle (.suspected claimTs)
  | reset (claimTs nowMs : Nat) :
      Moves player (.exchange player (.reaperReset nowMs)) true
        (.suspected claimTs) .reset
  | unown : Moves player (.storeClaimedBy player 0) () .reset .clearing
  | clear : Moves player (.storeClaimTimestamp player 0) () .clearing .cleared
  | stay {operation : Operation} {result : operation.Result} (phase : Phase)
      (untouched : operation.Touches player result = false) :
      Moves player operation result phase phase

/-- What an operation can do to the phase of its caller. -/
theorem moves {role : Role} {progress : Progress} {operation : Operation}
    (player : Player) (allowed : operation.Allowed role progress)
    (result : operation.Result) :
    Moves player operation result (progress.phase player)
      ((progress.phase player).next player operation result) := by
  cases operation with
  | exchange other site =>
      simp only [Phase.next]
      split
      · rename_i same
        subst same
        have attempted : site.Allowed other role progress := allowed
        cases site with
        | tryClaim workerId nowMs =>
            rw [attempted.2.2.1]
            cases result with
            | true => exact .claim workerId nowMs
            | false => exact .stay _ (by simp [Operation.Touches])
        | releaseClaim =>
            rw [show progress.phase other = .releasing from attempted]
            exact .release result
        | markMatched =>
            rw [show progress.phase other = .marking from attempted]
            cases result with
            | true => exact .mark
            | false => exact .miss
        | tryEvict =>
            rw [attempted.2.2]
            cases result with
            | true => exact .evict
            | false => exact .stay _ (by simp [Operation.Touches])
        | reaperReset nowMs =>
            obtain ⟨timeout, claimTs, _, _, suspected, _⟩ := attempted
            rw [suspected]
            cases result with
            | true => exact .reset claimTs nowMs
            | false => exact .stay _ (by simp [Operation.Touches])
      · rename_i different
        exact .stay _ (by simp [Operation.Touches, different])
  | storeClaimedBy other value =>
      simp only [Phase.next]
      split
      · rename_i same
        subst same
        rcases allowed with ⟨nowMs, phase⟩ |
          ⟨rfl, ⟨workerId, nowMs, phase⟩ | phase⟩
        · rw [phase]
          exact .stamp value nowMs
        · rw [phase]
          exact .unclaim workerId nowMs
        · rw [phase]
          exact .unown
      · rename_i different
        exact .stay _ (by simp [Operation.Touches, different])
  | storeClaimTimestamp other value =>
      simp only [Phase.next]
      split
      · rename_i same
        subst same
        rcases allowed with ⟨workerId, phase⟩ | ⟨rfl, phase | phase⟩
        · rw [phase]
          exact .hold workerId value
        · rw [phase]
          exact .unstamp
        · rw [phase]
          exact .clear
      · rename_i different
        exact .stay _ (by simp [Operation.Touches, different])
  | storeMatchedAt other value =>
      simp only [Phase.next]
      split
      · rename_i same
        subst same
        obtain ⟨workerId, nowMs, phase⟩ := allowed
        rw [phase]
        exact .settle workerId nowMs value
      · exact .stay _ rfl
  | loadClaimTimestamp other =>
      simp only [Phase.next]
      split
      · rename_i same
        subst same
        rw [allowed.2.2]
        exact .suspect result
      · exact .stay _ rfl
  | _ => exact .stay _ rfl

end Matchmaker
