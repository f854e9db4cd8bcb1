import Matchmaker.Engine.Split
import Matchmaker.Protocol.Candidates

namespace Matchmaker

open Concurrent

/-! How the matches that attempts publish were put together. -/

/-- The snapshot is one of the player, whatever wait it tells of. -/
structure Captures (player : Player) (snapshot : PlayerSnapshot) : Prop where
  id : snapshot.id = player.id
  skillRating : snapshot.skillRating = player.skillRating

/-- The team was made of snapshots of these players, in their order. -/
def Portrays (players : List Player) (team : Team) : Prop :=
  ∃ snapshots, team = .new snapshots ∧ List.Forall₂ Captures players snapshots

/-- What `buildMatch` makes of the players of an attempt. -/
structure Built (claimed : List Player) (balance : BalanceResult)
    (record : Match) (waitTimesMs : List Nat) (skillSpread : Nat) : Prop where
  teamA : Portrays balance.teamA record.teamA
  teamB : Portrays balance.teamB record.teamB
  delta : record.teamDelta =
    absDiff record.teamA.totalRating record.teamB.totalRating
  recorded : record.skillSpread = skillSpread
  spread : skillSpread = (claimed.map (·.skillRating)).max?.getD 0 -
    (claimed.map (·.skillRating)).min?.getD 0
  waits : waitTimesMs.length = claimed.length
  mean : record.avgWaitMs = waitTimesMs.sum % 2 ^ 64 / waitTimesMs.length
  longest : record.maxWaitMs = waitTimesMs.max?.getD 0

theorem Player.reads_captures (player : Player) :
    Reads (PlayerSnapshot.capture player) (Captures player) :=
  player.reads_settledWaitMs.bind fun _ _ => Program.yields_pure ⟨rfl, rfl⟩

theorem reads_built (claimed : List Player) (balance : BalanceResult) :
    Reads (buildMatch claimed balance) fun built =>
      Built claimed balance built.1 built.2.1 built.2.2 := by
  apply (Program.Yields.mapM Player.reads_settledWaitMs claimed).bind
  intro waitTimesMs waited
  apply (Program.Yields.mapM Player.reads_captures _).bind
  intro teamASnapshots capturedA
  apply (Program.Yields.mapM Player.reads_captures _).bind
  intro teamBSnapshots capturedB
  apply (reads_access rfl).bind
  intro matchId _
  apply (reads_access rfl).bind
  intro nowMs _
  exact Program.yields_pure {
    teamA := ⟨teamASnapshots, rfl, capturedA⟩
    teamB := ⟨teamBSnapshots, rfl, capturedB⟩
    delta := rfl
    recorded := rfl
    spread := rfl
    waits := waited.length_eq.symm
    mean := rfl
    longest := rfl }

/-- The ten players of a scan, the teams the balancer made of them, and the
record that was made of the teams. -/
structure Composed (config : Config) (claimed teamA teamB : List Player)
    (record : Match) : Prop where
  ten : claimed.length = matchSize
  distinct : claimed.Nodup
  bounded : ∀ player ∈ claimed, player.skillRating ≤ maxSkillRating
  window : ∃ elapsedMs, ∀ player ∈ claimed, ∀ other ∈ claimed,
    player.skillRating ≤ other.skillRating + 2 * windowAfter config elapsedMs
  teamA : teamA = (exhaustiveBalance claimed).teamA
  teamB : teamB = (exhaustiveBalance claimed).teamB
  built : ∃ waitTimesMs skillSpread,
    Built claimed (exhaustiveBalance claimed) record waitTimesMs skillSpread

/-- An attempt publishes composed matches, up to the limit of the history. -/
def Operation.Composes (config : Config) (works : Bool) : Operation → Prop
  | .pushHistory teamA teamB record limit => works →
      limit = matchHistoryLimit ∧
        ∃ claimed, Composed config claimed teamA teamB record
  | _ => True

/-- A range of the index holds ratings of that range. -/
def Operation.Ranged : (operation : Operation) → operation.Result → Prop
  | .indexRange lower upper, players => players.Nodup ∧
      ∀ player ∈ players,
        lower.1 ≤ player.skillRating ∧ player.skillRating ≤ upper.1
  | _, _ => True

@[reducible] def composing (config : Config) : Contract memory where
  Role := Bool
  Ghost := Unit
  initial := ()
  next := fun _ _ _ => ()
  Allowed := fun works _ operation => operation.Composes config works
  Credible := Operation.Ranged

def Operation.Pushes : Operation → Bool
  | .pushHistory .. => true
  | _ => false

/-- A task that publishes nothing. -/
abbrev Unpublishing (task : Task α) (post : α → Prop) : Prop :=
  task.Yields (fun operation : Operation => operation.Pushes = false) post

section Tasks

variable {config : Config} {works : Bool}

theorem Operation.composes_of_unpublishing {operation : Operation}
    (unpublishing : operation.Pushes = false) :
    operation.Composes config works := by
  cases operation <;> first
    | exact trivial
    | cases unpublishing

theorem Unpublishing.composes {task : Task α} {post : α → Prop}
    (unpublishing : Unpublishing task post) :
    (composing config).Obeys works (fun value _ => post value) task () := by
  have obeyed := @Contract.Obeys.of_yields _ (composing config) works _
    (fun operation => Operation.Pushes operation = false) (fun _ _ => True)
    post task () () (fun _ _ => trivial)
    (fun _ _ => Operation.composes_of_unpublishing) (fun _ _ _ _ => trivial)
    unpublishing trivial
  exact obeyed.mono fun _ _ holds => holds.1

theorem Looks.unpublishing {task : Task α} {post : α → Prop}
    (looks : Looks task post) : Unpublishing task post := by
  apply looks.permit
  intro operation passive
  cases operation <;> first
    | rfl
    | cases passive

theorem composes_access_bind {post : α → Unit → Prop} {operation : Operation}
    {rest : operation.Result → Task α} :
    (composing config).Obeys works post (access operation >>= rest) () ↔
      operation.Composes config works ∧ ∀ result, operation.Ranged result →
        (composing config).Obeys works post (rest result) () :=
  Iff.rfl

theorem PlayerPool.composes_rangeScan (minRating maxRating : Nat) :
    (composing config).Obeys works
      (fun candidates _ => candidates.Nodup ∧ ∀ player ∈ candidates,
        min minRating maxSkillRating ≤ player.skillRating ∧
          player.skillRating ≤ min maxRating maxSkillRating)
      (rangeScan minRating maxRating) () := by
  refine composes_access_bind.mpr ⟨trivial, ?_⟩
  intro entries ranged
  apply (reads_scanEntries entries []).looks.unpublishing.composes.bind
  intro kept _ found
  obtain ⟨_, rfl, sublist⟩ := found
  have perm : (sortCandidates kept).Perm kept := List.perm_insertionSort _ _
  refine ⟨perm.nodup_iff.mpr (ranged.1.sublist sublist), ?_⟩
  intro player member
  exact ranged.2 player (sublist.subset (perm.subset member))

/-- The claimed players are candidates, each of them once. -/
theorem yields_claimed {permitted : Operation → Prop} {workerId nowMs : Nat}
    (claims : ∀ player : Player,
      (player.tryClaim workerId nowMs).Yields permitted fun _ => True)
    (candidates claimed : List Player) :
    (claimCandidates workerId nowMs candidates claimed).Yields permitted
      fun found => ∃ kept, found = claimed ++ kept ∧
        kept.Sublist candidates := by
  induction candidates generalizing claimed with
  | nil => exact ⟨[], (List.append_nil _).symm, .slnil⟩
  | cons candidate rest induction =>
      unfold claimCandidates
      split
      · exact ⟨[], (List.append_nil _).symm, List.nil_sublist _⟩
      · apply (claims candidate).bind
        intro success _
        cases success with
        | false =>
            apply (induction claimed).mono
            intro found among
            obtain ⟨kept, same, sublist⟩ := among
            exact ⟨kept, same, sublist.cons candidate⟩
        | true =>
            apply (induction (claimed ++ [candidate])).mono
            intro found among
            obtain ⟨kept, same, sublist⟩ := among
            refine ⟨candidate :: kept, ?_, sublist.cons_cons candidate⟩
            rw [same, List.append_assoc, List.singleton_append]

theorem composes_completeMatch {ctx : WorkerContext}
    (limit : ctx.matchHistoryLimit = matchHistoryLimit) (state : WorkerState)
    {claimed : List Player} (ten : claimed.length = matchSize)
    (distinct : claimed.Nodup)
    (bounded : ∀ player ∈ claimed, player.skillRating ≤ maxSkillRating)
    (window : ∃ elapsedMs, ∀ player ∈ claimed, ∀ other ∈ claimed,
      player.skillRating ≤
        other.skillRating + 2 * windowAfter config elapsedMs) :
    (composing config).Obeys works (fun _ _ => True)
      (completeMatch ctx state claimed) () := by
  have marking : Unpublishing (forM claimed Player.markMatched) _ :=
    Program.Yields.forM (fun player =>
      player.yields_markMatched rfl (fun _ => rfl) rfl) claimed
  apply marking.composes.bind
  intro _ _ _
  apply (reads_built claimed _).looks.unpublishing.composes.bind
  intro outcome _ built
  have removing : Unpublishing (forM claimed fun player => do
      let _ ← PlayerPool.remove player.id) _ :=
    yields_removing claimed (fun _ => rfl) fun _ => rfl
  apply removing.composes.bind
  intro _ _ _
  refine composes_access_bind.mpr ⟨?_, ?_⟩
  · intro _
    exact ⟨limit, claimed, ten, distinct, bounded, window, rfl, rfl, _, _,
      built⟩
  · intro _ _
    exact (looks_updateMetricsOnSuccess _ _ _).unpublishing.composes.bind
      fun _ _ _ => trivial

theorem composes_claimMatch {ctx : WorkerContext}
    (limit : ctx.matchHistoryLimit = matchHistoryLimit) (state : WorkerState)
    (seed : Player) {candidates : List Player} (distinct : candidates.Nodup)
    (bounded : ∀ player ∈ candidates, player.skillRating ≤ maxSkillRating)
    (window : ∃ elapsedMs, ∀ player ∈ candidates, ∀ other ∈ candidates,
      player.skillRating ≤
        other.skillRating + 2 * windowAfter config elapsedMs) :
    (composing config).Obeys works (fun _ _ => True)
      (claimMatch ctx state seed candidates) () := by
  refine composes_access_bind.mpr ⟨trivial, fun nowMs _ => ?_⟩
  have claiming : ∀ player : Player,
      Unpublishing (player.tryClaim ctx.workerId nowMs) fun _ => True :=
    fun player => player.yields_tryClaim rfl rfl rfl
  have claims : Unpublishing
      (claimCandidates ctx.workerId nowMs candidates []) _ :=
    (yields_claimCandidates claiming candidates (Nat.zero_le _)).both
      (yields_claimed claiming candidates [])
  apply claims.composes.bind
  intro claimed _ found
  obtain ⟨⟨few, _⟩, kept, same, sublist⟩ := found
  rw [List.nil_append] at same
  subst same
  split
  · have releasing : Unpublishing (forM claimed Player.releaseClaim) _ :=
      Program.Yields.forM (fun player =>
        player.yields_releaseClaim rfl rfl rfl) claimed
    apply releasing.composes.bind
    intro _ _ _
    exact composes_access_bind.mpr ⟨trivial, fun _ _ => trivial⟩
  · obtain ⟨elapsedMs, near⟩ := window
    apply composes_completeMatch limit state (by omega)
    · exact distinct.sublist sublist
    · exact fun player member => bounded player (sublist.subset member)
    · exact ⟨elapsedMs, fun player member other member' =>
        near player (sublist.subset member) other (sublist.subset member')⟩

theorem reads_scanBounds_within (skillRating : Nat) (joinTimestamp : Instant) :
    Reads (scanBounds skillRating joinTimestamp config) fun bounds =>
      ∃ elapsedMs,
        bounds = boundsWithin skillRating (windowAfter config elapsedMs) := by
  have waited : Reads (relaxationWindow joinTimestamp config) fun window =>
      ∃ elapsedMs, window = windowAfter config elapsedMs :=
    (reads_elapsedMs _).bind fun elapsedMs _ =>
      Program.yields_pure ⟨elapsedMs, rfl⟩
  apply waited.bind
  intro window found
  obtain ⟨elapsedMs, rfl⟩ := found
  exact Program.yields_pure ⟨elapsedMs, rfl⟩

/-- Ratings between the bounds of a scan are not further apart than twice the
window: a seed rated above the maximum finds that rating only. -/
theorem boundsWithin_width {skillRating window rating rating' : Nat}
    (low : min (boundsWithin skillRating window).1 maxSkillRating ≤ rating')
    (high : rating ≤
      min (boundsWithin skillRating window).2 maxSkillRating) :
    rating ≤ rating' + 2 * window := by
  simp only [boundsWithin, maxSkillRating] at low high
  omega

theorem composes_attemptMatch {ctx : WorkerContext}
    (limit : ctx.matchHistoryLimit = matchHistoryLimit)
    (state : WorkerState) :
    (composing ctx.config).Obeys works (fun _ _ => True)
      (attemptMatch ctx state) () := by
  apply (reads_selectSeed ctx state).looks.unpublishing.composes.bind
  intro found _ _
  cases found with
  | none => exact trivial
  | some seed =>
      apply (reads_scanBounds_within _ _).looks.unpublishing.composes.bind
      intro bounds _ within
      obtain ⟨elapsedMs, rfl⟩ := within
      apply (reads_relaxationStage _ _).looks.unpublishing.composes.bind
      intro stage _ _
      refine composes_access_bind.mpr ⟨trivial, fun _ _ => ?_⟩
      apply (PlayerPool.composes_rangeScan _ _).bind
      intro candidates _ scanned
      dsimp only
      split
      · exact composes_access_bind.mpr ⟨trivial, fun _ _ => trivial⟩
      · apply composes_claimMatch limit state seed scanned.1
        · intro player member
          exact (scanned.2 player member).2.trans (Nat.min_le_right ..)
        · refine ⟨elapsedMs, fun player member other member' => ?_⟩
          exact boundsWithin_width (scanned.2 other member').1
            (scanned.2 player member).2

theorem System.composes_program {system : System} {request : Request}
    {task : Task Response}
    (launched : system.program config request = some task) :
    (composing config).Obeys request.works (fun _ _ => True) task () := by
  cases request with
  | attemptMatch workerId =>
      obtain ⟨state, _, rfl⟩ := Option.map_eq_some_iff.mp launched
      have obeyed := @composes_attemptMatch true
        { workerId, config, matchHistoryLimit } rfl state
      exact obeyed.map fun _ _ _ => trivial
  | _ =>
      apply Contract.Obeys.of_allowed
      intro operation _
      cases operation <;> first
        | exact trivial
        | exact fun works => absurd works Bool.false_ne_true

end Tasks

section Run

variable {config : Config} {clock : Clock} {discipline : Discipline}
  {system : System}

theorem Sound.ranged (sound : Sound config system) (choice : Choice)
    (operation : Operation) :
    operation.Ranged (system.world.perform choice operation).1 := by
  cases operation with
  | indexRange lower upper =>
      refine ⟨(sound.credible choice (.indexRange lower upper)).1, ?_⟩
      intro player member
      obtain ⟨key, found, above, below⟩ := mem_indexRange.mp member
      obtain rfl := sound.keyed.index found
      rw [compareKeys_isLE] at above below
      simp only [Player.ratingKey] at above below
      omega
  | _ => exact trivial

theorem Run.follows_composing (run : Run config clock discipline system) :
    system.Follows (composing config) Request.works fun _ _ _ => True :=
  Run.follows_sound run System.composes_program Sound.ranged

theorem Performing.composes (run : Run config clock discipline system)
    {caller : Nat} {request : Request} {teamA teamB : List Player}
    {record : Match} {limit : Nat}
    (performing : Performing config discipline system caller request
      (.pushHistory teamA teamB record limit)) :
    limit = matchHistoryLimit ∧
      ∃ claimed, Composed config claimed teamA teamB record := by
  obtain ⟨next, found⟩ := performing.next
  obtain ⟨⟨workerId, attempt⟩, _⟩ := performing.allowed
  have works : request.works := by
    cases request <;> first
      | rfl
      | cases attempt
  exact (Run.follows_composing run caller _ found).1 works

theorem Run.composed (run : Run config clock discipline system)
    {publication : Publication}
    (member : publication ∈ publications system.trace) :
    ∃ claimed, Composed config claimed publication.teamA publication.teamB
      publication.record := by
  refine Run.invariant run (fun _ trace => publication ∈ publications trace →
    ∃ claimed, Composed config claimed publication.teamA publication.teamB
      publication.record) ?_ (fun _ _ holds => holds) ?_ member
  · intro none
    cases none
  · intro system mover request operation choice run performing holds member
    cases operation with
    | pushHistory teamA teamB record limit =>
        rcases List.mem_cons.mp member with rfl | earlier
        · exact (performing.composes run).2
        · exact holds earlier
    | _ => exact holds member

end Run

end Matchmaker
