import Matchmaker.Protocol.Contract

namespace Matchmaker

open Concurrent

/-! Tasks that only look around, and what they can find. -/

@[simp] theorem obeys_access_bind {role : Role} {post : α → Progress → Prop}
    {operation : Operation} {rest : operation.Result → Task α}
    {progress : Progress} :
    protocol.Obeys role post (access operation >>= rest) progress ↔
      operation.Allowed role progress ∧
        ∀ result, operation.Credible result →
          protocol.Obeys role post (rest result)
            (progress.next operation result) :=
  Iff.rfl

@[simp] theorem obeys_access {role : Role} {operation : Operation}
    {post : operation.Result → Progress → Prop} {progress : Progress} :
    protocol.Obeys role post (access operation) progress ↔
      operation.Allowed role progress ∧
        ∀ result, operation.Credible result →
          post result (progress.next operation result) :=
  Iff.rfl

/-- Operations that tell a call something and change nothing the protocol
speaks of. -/
def Operation.Passive : Operation → Bool
  | .loadState _ | .loadClaimedBy _ | .loadMatchedAt _ => true
  | .instantNow | .unixMs | .newV4 => true
  | .primaryGet _ | .primaryIter | .primaryLen | .indexRange .. => true
  | .upgrade _ | .fetchAdd .. | .addQueueSize _ => true
  | _ => false

/-- The later progress differs from the earlier one by what was learnt. -/
structure Progress.Extends (earlier later : Progress) : Prop where
  phase : later.phase = earlier.phase
  removal : later.removal = earlier.removal
  enrolment : later.enrolment = earlier.enrolment
  published : later.published = earlier.published
  known : earlier.known ⊆ later.known

namespace Progress

theorem Extends.refl (progress : Progress) : progress.Extends progress :=
  ⟨rfl, rfl, rfl, rfl, List.Subset.refl _⟩

theorem Extends.trans {first second third : Progress}
    (left : first.Extends second) (right : second.Extends third) :
    first.Extends third :=
  ⟨right.phase.trans left.phase, right.removal.trans left.removal,
    right.enrolment.trans left.enrolment,
    right.published.trans left.published, List.Subset.trans left.known right.known⟩

theorem extends_next {operation : Operation} (progress : Progress)
    (result : operation.Result) (passive : operation.Passive) :
    progress.Extends (progress.next operation result) := by
  have known := List.subset_append_left progress.known
    (operation.learnt result)
  cases operation <;> first
    | exact ⟨rfl, rfl, rfl, rfl, known⟩
    | cases passive

end Progress

theorem Operation.allowed_of_passive {operation : Operation} (role : Role)
    (progress : Progress) (passive : operation.Passive) :
    operation.Allowed role progress := by
  cases operation <;> first
    | exact trivial
    | cases passive

/-- A task that only looks around. -/
abbrev Looks (task : Task α) (post : α → Prop) : Prop :=
  task.Yields (fun operation : Operation => operation.Passive) post

theorem Looks.obeys {task : Task α} {post : α → Prop} (looks : Looks task post)
    {role : Role} {progress : Progress} :
    protocol.Obeys role
      (fun value later => post value ∧ progress.Extends later)
      task progress :=
  Contract.Obeys.of_yields (fun first second => first.trans second)
    (fun _ progress => Operation.allowed_of_passive role progress)
    (fun _ progress result => progress.extends_next result)
    looks (.refl progress)

theorem looks_access {operation : Operation} (passive : operation.Passive) :
    Looks (access operation) fun _ => True :=
  Program.yields_request passive

/-- Operations that change nothing at all. -/
def Operation.Reads : Operation → Bool
  | .fetchAdd .. | .addQueueSize _ => false
  | operation => operation.Passive

theorem Operation.passive_of_reads {operation : Operation}
    (reads : operation.Reads) : operation.Passive := by
  cases operation <;> first
    | rfl
    | cases reads

/-- A task that only reads. -/
abbrev Reads (task : Task α) (post : α → Prop) : Prop :=
  task.Yields (fun operation : Operation => operation.Reads) post

theorem Reads.looks {task : Task α} {post : α → Prop}
    (reads : Reads task post) : Looks task post :=
  reads.permit fun _ => Operation.passive_of_reads

theorem Reads.obeys {task : Task α} {post : α → Prop} (reads : Reads task post)
    {role : Role} {progress : Progress} :
    protocol.Obeys role
      (fun value later => post value ∧ progress.Extends later)
      task progress :=
  reads.looks.obeys

theorem reads_access {operation : Operation} (reads : operation.Reads) :
    Reads (access operation) fun _ => True :=
  Program.yields_request reads

section Looking

theorem reads_elapsedMs (joinTimestamp : Instant) :
    Reads (elapsedMs joinTimestamp) fun _ => True :=
  (reads_access rfl).bind fun _ _ => Program.yields_value _

theorem Player.reads_settledWaitMs (player : Player) :
    Reads player.settledWaitMs fun _ => True := by
  apply ((reads_access rfl).bind fun _ _ =>
    Program.yields_value _).bind
  intro wait _
  cases wait with
  | some wait => exact Program.yields_value _
  | none => exact reads_elapsedMs _

theorem PlayerSnapshot.reads_capture (player : Player) :
    Reads (PlayerSnapshot.capture player) fun snapshot =>
      snapshot.id = player.id :=
  player.reads_settledWaitMs.bind fun _ _ => Program.yields_pure rfl

theorem reads_scanBounds (skillRating : Nat) (joinTimestamp : Instant)
    (config : Config) :
    Reads (scanBounds skillRating joinTimestamp config) fun _ => True :=
  ((reads_elapsedMs _).bind fun _ _ =>
    Program.yields_value _).bind
      fun _ _ => Program.yields_value _

theorem reads_relaxationStage (joinTimestamp : Instant) (config : Config) :
    Reads (relaxationStage joinTimestamp config) fun _ => True :=
  (reads_elapsedMs _).bind fun _ _ => Program.yields_value _

theorem PlayerPool.reads_filterWaiting (admits : Player → Bool)
    (players : List Player) :
    Reads (filterWaiting admits players) fun _ => True := by
  induction players with
  | nil => exact Program.yields_value _
  | cons player rest induction =>
      apply ((reads_access rfl).bind fun _ _ =>
        Program.yields_value _).bind
      intro _ _
      exact induction.bind fun _ _ => Program.yields_value _

theorem PlayerPool.reads_oldestWaiting : Reads oldestWaiting fun _ => True := by
  apply (reads_access rfl).bind
  intro entries _
  exact (reads_filterWaiting _ entries).bind fun _ _ =>
    Program.yields_value _

theorem PlayerPool.reads_oldestWaitingExcludingRange
    (excludeMin excludeMax : Nat) :
    Reads (oldestWaitingExcludingRange excludeMin excludeMax)
      fun _ => True := by
  apply (reads_access rfl).bind
  intro entries _
  exact (reads_filterWaiting _ entries).bind fun _ _ =>
    Program.yields_value _

theorem reads_selectSeed (ctx : WorkerContext) (state : WorkerState) :
    Reads (selectSeed ctx state) fun _ => True := by
  apply PlayerPool.reads_oldestWaiting.bind
  intro seed _
  cases seed with
  | none => exact Program.yields_value _
  | some primarySeed =>
      dsimp only
      split
      · apply (reads_scanBounds _ _ _).bind
        intro bounds _
        exact (PlayerPool.reads_oldestWaitingExcludingRange _ _).bind
          fun _ _ => Program.yields_value _
      · exact Program.yields_value _

theorem PlayerPool.reads_scanEntries (entries candidates : List Player) :
    Reads (scanEntries entries candidates) fun found =>
      ∃ kept, found = candidates ++ kept ∧ kept.Sublist entries := by
  induction entries generalizing candidates with
  | nil => exact Program.yields_pure ⟨[], by simp, .slnil⟩
  | cons player rest induction =>
      have skipped : Reads (scanEntries rest candidates) fun found =>
          ∃ kept, found = candidates ++ kept ∧ kept.Sublist (player :: rest) :=
        (induction candidates).mono fun found split => by
          obtain ⟨kept, equality, sublist⟩ := split
          exact ⟨kept, equality, sublist.cons player⟩
      apply (reads_access rfl).bind
      intro alive _
      cases alive with
      | false => exact skipped
      | true =>
          apply (reads_access rfl).bind
          intro state _
          split
          · exact skipped
          · split
            · refine Program.yields_pure ⟨[player], rfl, ?_⟩
              exact (List.nil_sublist rest).cons_cons player
            · apply (induction (candidates ++ [player])).mono
              intro found split
              obtain ⟨kept, equality, sublist⟩ := split
              refine ⟨player :: kept, ?_, sublist.cons_cons player⟩
              simp [equality]

theorem PlayerPool.reads_rangeScan (minRating maxRating : Nat) :
    Reads (rangeScan minRating maxRating) fun _ => True := by
  apply (reads_access rfl).bind
  intro entries _
  exact (reads_scanEntries entries []).bind fun _ _ =>
    Program.yields_value _

theorem capture_ids {players : List Player} {snapshots : List PlayerSnapshot}
    (captured : List.Forall₂ (fun player snapshot =>
      PlayerSnapshot.id snapshot = player.id) players snapshots) :
    snapshots.map (·.id) = players.map (·.id) := by
  induction captured with
  | nil => rfl
  | cons same _ induction => simp [same, induction]

/-- What a record says of the players it was made for. -/
structure Describes (claimed : List Player) (balance : BalanceResult)
    (record : Match) : Prop where
  spread : record.skillSpread =
    (claimed.map (·.skillRating)).max?.getD 0 -
      (claimed.map (·.skillRating)).min?.getD 0
  recordA : record.teamA.players.map (·.id) = balance.teamA.map (·.id)
  recordB : record.teamB.players.map (·.id) = balance.teamB.map (·.id)

theorem reads_buildMatch (claimed : List Player) (balance : BalanceResult) :
    Reads (buildMatch claimed balance) fun built =>
      Describes claimed balance built.1 := by
  apply (Program.Yields.mapM Player.reads_settledWaitMs claimed).bind
  intro waitTimesMs _
  apply (Program.Yields.mapM PlayerSnapshot.reads_capture _).bind
  intro teamASnapshots capturedA
  apply (Program.Yields.mapM PlayerSnapshot.reads_capture _).bind
  intro teamBSnapshots capturedB
  apply (reads_access rfl).bind
  intro matchId _
  apply (reads_access rfl).bind
  intro nowMs _
  exact Program.yields_pure
    ⟨rfl, capture_ids capturedA, capture_ids capturedB⟩

theorem looks_fetchAdd (counter : Counter) (amount : Nat) :
    Looks (fetchAdd counter amount) fun _ => True :=
  looks_access rfl

theorem looks_updateMetricsOnSuccess (completedMatch : Match)
    (waitTimesMs : List Nat) (skillSpread : Nat) :
    Looks (updateMetricsOnSuccess completedMatch waitTimesMs skillSpread)
      fun _ => True := by
  iterate 7 refine (looks_access rfl).bind fun _ _ => ?_
  exact looks_access rfl

end Looking

theorem PlayerPool.obeys_rangeScan {role : Role} {progress : Progress}
    (minRating maxRating : Nat) :
    protocol.Obeys role
      (fun candidates later =>
        (candidates.Nodup ∧ candidates ⊆ later.known ∧
          ∀ player ∈ candidates, player.skillRating ≤ maxSkillRating) ∧
        progress.Extends later)
      (rangeScan minRating maxRating) progress := by
  refine obeys_access_bind.mpr ⟨trivial, ?_⟩
  intro entries credible
  have learnt : progress.Extends (progress.next (.indexRange
      (min minRating maxSkillRating, uuidNil)
      (min maxRating maxSkillRating, uuidMax)) entries) :=
    progress.extends_next entries rfl
  apply (reads_scanEntries entries []).obeys.bind
  intro kept later found
  obtain ⟨⟨_, rfl, sublist⟩, extended⟩ := found
  have perm : (sortCandidates kept).Perm kept := List.perm_insertionSort _ _
  refine ⟨⟨perm.nodup_iff.mpr (credible.1.sublist sublist), ?_, ?_⟩,
    learnt.trans extended⟩
  · intro player member
    apply extended.known
    apply List.mem_append_right
    exact sublist.subset (perm.subset member)
  · intro player member
    exact credible.2 player (sublist.subset (perm.subset member))

end Matchmaker
