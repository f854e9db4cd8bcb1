import Matchmaker.Engine.Matcher

namespace Matchmaker

open Concurrent

/-! The accesses that a task makes, whatever it is told. -/

section Accesses

variable {permitted : Operation → Prop}

theorem Player.yields_tryClaim (player : Player) {workerId nowMs : Nat}
    (claims : permitted (.exchange player (.tryClaim workerId nowMs)))
    (storesOwner : permitted (.storeClaimedBy player workerId))
    (storesTime : permitted (.storeClaimTimestamp player nowMs)) :
    (player.tryClaim workerId nowMs).Yields permitted fun _ => True := by
  apply (Program.yields_request claims).bind
  intro success _
  cases success with
  | false => exact Program.yields_value _
  | true =>
      apply (Program.yields_request storesOwner).bind
      intro _ _
      apply (Program.yields_request storesTime).bind
      intro _ _
      exact Program.yields_value _

theorem Player.yields_releaseClaim (player : Player)
    (storesOwner : permitted (.storeClaimedBy player 0))
    (storesTime : permitted (.storeClaimTimestamp player 0))
    (releases : permitted (.exchange player .releaseClaim)) :
    player.releaseClaim.Yields permitted fun _ => True := by
  apply (Program.yields_request storesOwner).bind
  intro _ _
  apply (Program.yields_request storesTime).bind
  intro _ _
  apply (Program.yields_request releases).bind
  intro _ _
  exact Program.yields_value _

theorem Player.yields_markMatched (player : Player)
    (reads : permitted .instantNow)
    (dates : ∀ now, permitted (.storeMatchedAt player now))
    (marks : permitted (.exchange player .markMatched)) :
    player.markMatched.Yields permitted fun _ => True := by
  apply (Program.yields_request reads).bind
  intro now _
  apply (Program.yields_request (dates now)).bind
  intro _ _
  apply (Program.yields_request marks).bind
  intro _ _
  exact Program.yields_value _

theorem PlayerPool.yields_remove {id : Uuid}
    (removes : permitted (.primaryRemove id))
    (unindexes : ∀ player, permitted (.indexRemove player)) :
    (PlayerPool.remove id).Yields permitted fun _ => True := by
  apply (Program.yields_request removes).bind
  intro found _
  cases found with
  | none => exact Program.yields_value _
  | some player =>
      apply (Program.yields_request (unindexes player)).bind
      intro _ _
      exact Program.yields_value _

theorem yields_removing (claimed : List Player)
    (removes : ∀ id, permitted (.primaryRemove id))
    (unindexes : ∀ player, permitted (.indexRemove player)) :
    (forM claimed fun player => do
      let _ ← PlayerPool.remove player.id : Task Unit).Yields permitted
        fun _ => True := by
  apply Program.Yields.forM
  intro player
  apply (PlayerPool.yields_remove (removes player.id) unindexes).bind
  intro _ _
  exact Program.yields_value _

theorem yields_claimCandidates {workerId nowMs : Nat}
    (claims : ∀ player : Player,
      (player.tryClaim workerId nowMs).Yields permitted fun _ => True)
    (candidates : List Player) {claimed : List Player}
    (few : claimed.length ≤ matchSize) :
    (claimCandidates workerId nowMs candidates claimed).Yields permitted
      fun found => found.length ≤ matchSize ∧
        found ⊆ claimed ++ candidates := by
  induction candidates generalizing claimed with
  | nil => exact ⟨few, List.subset_append_left ..⟩
  | cons candidate rest induction =>
      unfold claimCandidates
      split
      · exact ⟨few, List.subset_append_left ..⟩
      · rename_i short
        apply (claims candidate).bind
        intro success _
        cases success with
        | false =>
            apply (induction few).mono
            intro found kept
            refine ⟨kept.1, List.Subset.trans kept.2 ?_⟩
            apply List.append_subset_of_subset_of_subset
            · exact List.subset_append_left ..
            · exact List.subset_append_of_subset_right _
                (List.subset_cons_self ..)
        | true =>
            have room : (claimed ++ [candidate]).length ≤ matchSize := by
              rw [List.length_append, List.length_singleton]
              omega
            apply (induction room).mono
            intro found kept
            rw [List.append_assoc, List.singleton_append] at kept
            exact kept

end Accesses

end Matchmaker
