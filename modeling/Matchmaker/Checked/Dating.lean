import Matchmaker.Checked.Attempt
import Matchmaker.Engine.Accesses
import Matchmaker.Protocol.Looking
import Matchmaker.Ranking.Least

namespace Matchmaker

open Concurrent Ranking

/-! The players whose time of match a call has stored, and what it can expect
to read. -/

/-- How long the player has waited in milliseconds, however long that is. -/
def Player.waitedMs (player : Player) (now : Instant) : Nat :=
  (now - player.joinTimestamp) / 1000000

def Operation.Expected : (operation : Operation) → operation.Result → Prop
  | .loadMatchedAt player, matchedAt =>
      ∀ instant ∈ matchedAt, player.waitedMs instant < 2 ^ 59
  | .primaryIter, players =>
      ∀ player ∈ players, player.skillRating ≤ maxSkillRating
  | .indexRange .., players =>
      ∀ player ∈ players, player.skillRating ≤ maxSkillRating
  | _, _ => True

/-- A player that the call dated before is found dated. -/
def Operation.Dated (dated : List Player) :
    (operation : Operation) → operation.Result → Prop
  | .loadMatchedAt player, matchedAt => player ∈ dated → matchedAt ≠ none
  | _, _ => True

def Operation.dates (dated : List Player) : Operation → List Player
  | .storeMatchedAt player _ => player :: dated
  | _ => dated

@[reducible] def dating : Contract memory where
  Role := Unit
  Ghost := List Player
  initial := []
  next := fun dated operation _ => operation.dates dated
  Allowed := fun _ _ _ => True
  Credible := Operation.Expected

/-- What a call can expect to be told, after what it has done. -/
def expects (dated : List Player) (operation : Operation)
    (result : operation.Result) : Prop :=
  operation.Expected result ∧ operation.Dated dated result

/-- The task finds something and dates nobody. -/
abbrev Finding (dated : List Player) (task : Task α) (post : α → Prop) : Prop :=
  dating.Obeys () (fun value later => post value ∧ later = dated) task dated

/-- Operations that store no time of a match. -/
def Operation.Undated : Operation → Bool
  | .storeMatchedAt .. => false
  | _ => true

abbrev Undated (task : Task α) (post : α → Prop) : Prop :=
  task.Yields (fun operation : Operation => operation.Undated) post

section Tasks

variable {dated : List Player}

theorem Operation.dates_of_undated {operation : Operation}
    (undated : operation.Undated) : operation.dates dated = dated := by
  cases operation with
  | storeMatchedAt player value => cases undated
  | _ => rfl

theorem Undated.finding {task : Task α} {post : α → Prop}
    (undated : Undated task post) : Finding dated task post := by
  apply @Contract.Obeys.of_yields memory dating () α
    (fun operation : Operation => operation.Undated)
    (fun earlier later => later = earlier) post task dated dated
  · intro first second third before after
    exact after.trans before
  · intro operation earlier quiet
    exact trivial
  · intro operation earlier result quiet
    exact Operation.dates_of_undated quiet
  · exact undated
  · rfl

theorem Reads.undated {task : Task α} {post : α → Prop}
    (reads : Reads task post) : Undated task post := by
  apply reads.permit
  intro operation passive
  cases operation <;> first
    | rfl
    | cases passive

theorem undated_access {operation : Operation} (undated : operation.Undated) :
    Undated (access operation) fun _ => True :=
  Program.yields_request undated

theorem undated_fetchAdd (counter : Counter) (amount : Nat) :
    Undated (fetchAdd counter amount) fun _ => True :=
  undated_access rfl

theorem undated_scanBounds (skillRating : Nat) (joinTimestamp : Instant)
    (config : Config) :
    Undated (scanBounds skillRating joinTimestamp config) fun bounds =>
      ∃ window, bounds = boundsWithin skillRating window := by
  apply ((reads_elapsedMs joinTimestamp).undated.bind fun _ _ =>
    Program.yields_value _).bind
  intro window _
  exact Program.yields_pure ⟨window, rfl⟩

theorem PlayerPool.undated_filterWaiting (admits : Player → Bool)
    (players : List Player) :
    Undated (filterWaiting admits players) fun kept => kept ⊆ players := by
  induction players with
  | nil => exact List.Subset.refl _
  | cons player rest induction =>
      apply ((undated_access rfl).bind fun _ _ => Program.yields_value _).bind
      intro waiting _
      apply induction.bind
      intro kept within
      apply Program.yields_pure
      split
      · exact List.cons_subset_cons player within
      · exact List.subset_cons_of_subset player within

theorem PlayerPool.mem_of_minBySeedKey {players : List Player}
    {seed : Player} (least : minBySeedKey players = some seed) :
    seed ∈ players := by
  cases players with
  | nil => cases least
  | cons first rest =>
      cases least
      exact @leastFrom_mem _ _ _ Player.seedKey rest first

theorem dates_access_bind {post : α → List Player → Prop}
    {operation : Operation} {rest : operation.Result → Task α} :
    dating.Obeys () post (access operation >>= rest) dated ↔
      ∀ result, operation.Expected result →
        dating.Obeys () post (rest result) (operation.dates dated) :=
  ⟨And.right, And.intro trivial⟩

theorem PlayerPool.finding_seed (admits : Player → Bool) :
    Finding dated (do
      let entries ← access .primaryIter
      let waiting ← filterWaiting admits entries
      return minBySeedKey waiting) fun found =>
        ∀ seed ∈ found, seed.skillRating ≤ maxSkillRating := by
  apply dates_access_bind.mpr
  intro entries rated
  apply (undated_filterWaiting admits entries).finding.bind
  intro waiting later walked
  refine ⟨?_, walked.2⟩
  intro seed found
  exact rated seed (walked.1 (mem_of_minBySeedKey found))

theorem finding_selectSeed (ctx : WorkerContext) (state : WorkerState) :
    Finding dated (selectSeed ctx state) fun found =>
      ∀ seed ∈ found, seed.skillRating ≤ maxSkillRating := by
  apply (PlayerPool.finding_seed fun _ => true).bind
  intro found _ rated
  cases found with
  | none => exact rated
  | some primarySeed =>
      obtain ⟨rated, rfl⟩ := rated
      dsimp only
      split
      · apply (reads_scanBounds _ _ _).undated.finding.bind
        intro bounds _ scanned
        obtain ⟨_, rfl⟩ := scanned
        apply (PlayerPool.finding_seed _).bind
        intro alternate _ rated'
        cases alternate with
        | none => exact ⟨rated, rated'.2⟩
        | some seed => exact rated'
      · exact ⟨rated, rfl⟩

theorem Player.dates_markMatched (player : Player) :
    dating.Obeys () (fun _ later => later = player :: dated)
      player.markMatched dated := by
  apply dates_access_bind.mpr
  intro now _
  apply dates_access_bind.mpr
  intro _ _
  apply dates_access_bind.mpr
  intro _ _
  rfl

theorem dates_marking (claimed : List Player) :
    dating.Obeys () (fun _ later => ∀ player ∈ claimed, player ∈ later)
      (forM claimed Player.markMatched) dated := by
  have marked := @Contract.Obeys.forM memory dating () _ claimed
    Player.markMatched
    (fun rest later => ∀ player ∈ claimed, player ∈ rest ∨ player ∈ later)
    dated (fun _ => .inl) ?_
  · apply marked.mono
    intro _ later dated player member
    exact (dated player member).resolve_left List.not_mem_nil
  · intro player rest later dated
    apply player.dates_markMatched.mono
    intro _ later' same other member
    subst same
    rcases dated other member with ahead | before
    · rcases List.mem_cons.mp ahead with rfl | ahead
      · exact .inr (List.mem_cons_self ..)
      · exact .inl ahead
    · exact .inr (List.mem_cons_of_mem _ before)

theorem Instant.msSince_le (now : Instant) (player : Player) :
    now.msSince player.joinTimestamp ≤ player.waitedMs now :=
  Nat.mod_le ..

theorem PlayerSnapshot.undated_capture (player : Player) :
    Undated (PlayerSnapshot.capture player) fun snapshot =>
      snapshot.skillRating = player.skillRating :=
  player.reads_settledWaitMs.undated.bind fun _ _ => Program.yields_pure rfl

theorem MatchmakerCore.undated_enqueue (id : Uuid) (skillRating : Nat) :
    Undated (MatchmakerCore.enqueue id skillRating) fun _ => True := by
  unfold MatchmakerCore.enqueue
  split
  · exact Program.yields_value _
  · apply (undated_access rfl).bind
    intro present _
    cases present with
    | true => exact Program.yields_value _
    | false =>
        iterate 7 refine (undated_access rfl).bind fun _ _ => ?_
        exact Program.yields_value _

theorem MatchmakerCore.undated_cancel (id : Uuid) :
    Undated (MatchmakerCore.cancel id) fun _ => True := by
  apply (undated_access rfl).bind
  intro found _
  cases found with
  | none => exact Program.yields_value _
  | some player =>
      apply (undated_access rfl).bind
      intro success _
      cases success with
      | false => exact Program.yields_value _
      | true =>
          have removes : Undated (PlayerPool.remove id) fun _ => True :=
            PlayerPool.yields_remove rfl fun _ => rfl
          apply removes.bind
          intro _ _
          apply (undated_access rfl).bind
          intro _ _
          apply (undated_access rfl).bind
          intro _ _
          exact Program.yields_value _

theorem undated_reapPlayer (nowMs staleClaimTimeoutMs : Nat)
    (player : Player) :
    Undated (reapPlayer nowMs staleClaimTimeoutMs player) fun _ => True := by
  apply (undated_access rfl).bind
  intro state _
  split
  · exact Program.yields_value _
  · apply (undated_access rfl).bind
    intro claimTs _
    split
    · exact Program.yields_value _
    · split
      · apply (undated_access rfl).bind
        intro _ _
        apply (undated_access rfl).bind
        intro success _
        cases success with
        | false => exact Program.yields_value _
        | true =>
            apply (undated_access rfl).bind
            intro _ _
            apply (undated_access rfl).bind
            intro _ _
            exact Program.yields_value _
      · exact Program.yields_value _

theorem undated_reapPlayers (nowMs staleClaimTimeoutMs : Nat)
    (players : List Player) (recovered : Nat) :
    Undated (reapPlayers nowMs staleClaimTimeoutMs players recovered)
      fun _ => True := by
  induction players generalizing recovered with
  | nil => exact Program.yields_value _
  | cons player rest induction =>
      apply (undated_reapPlayer nowMs staleClaimTimeoutMs player).bind
      intro success _
      cases success with
      | false => exact induction recovered
      | true => exact induction (recovered + 1)

theorem undated_reaperTick (staleClaimTimeoutMs : Nat) :
    Undated (reaperTick staleClaimTimeoutMs) fun _ => True := by
  apply (undated_access rfl).bind
  intro nowMs _
  apply (undated_access rfl).bind
  intro allPlayers _
  apply (undated_reapPlayers nowMs staleClaimTimeoutMs allPlayers 0).bind
  intro recovered _
  split
  · exact undated_access rfl
  · exact Program.yields_value _

end Tasks

end Matchmaker
