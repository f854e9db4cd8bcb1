import Matchmaker.Concurrent.Tracking
import Matchmaker.Engine.Split
import Matchmaker.Protocol.Composition
import Matchmaker.Sequential.Scans

namespace Matchmaker

open Concurrent Ranking

/-! What an attempt cannot overlook: players that stay in the pool, waiting,
from its start to its return, whatever the other calls do meanwhile. -/

/-- The player can be found by every search and could be claimed. -/
structure Available (core : Core) (player : Player) : Prop where
  stored : core.primary.lookup player.id = some player
  indexed : core.index[player.ratingKey]? = some player
  waiting : (core.cells player).state = .waiting

instance (core : Core) (player : Player) :
    Decidable (Available core player) :=
  decidable_of_iff
    (core.primary.lookup player.id = some player ∧
      core.index[player.ratingKey]? = some player ∧
      (core.cells player).state = .waiting)
    ⟨fun holds => ⟨holds.1, holds.2.1, holds.2.2⟩,
      fun holds => ⟨holds.stored, holds.indexed, holds.waiting⟩⟩

/-- A range of ratings that was scanned, and the entries that were met. -/
structure Scan where
  lowest : Nat
  highest : Nat
  entries : List Player

def Scan.Covers (scan : Scan) (player : Player) : Prop :=
  scan.lowest ≤ player.skillRating ∧ player.skillRating ≤ scan.highest

instance (scan : Scan) : DecidablePred scan.Covers :=
  fun _ => inferInstanceAs (Decidable (_ ∧ _))

/-- The first scan of a call, and the players it published. -/
structure Survey where
  scanned : Option Scan
  published : List Player

def Survey.next (survey : Survey) :
    (operation : Operation) → operation.Result → Survey
  | .indexRange lower upper, entries =>
      { survey with
        scanned := survey.scanned.or (some ⟨lower.1, upper.1, entries⟩) }
  | .pushHistory teamA teamB _ _, _ =>
      { survey with published := teamA ++ teamB }
  | _, _ => survey

/-- The scan was made around a seed of that rating, in the window of some waiting
time. -/
def Scan.Around (config : Config) (rating : Nat) (scan : Scan) : Prop :=
  ∃ elapsedMs,
    scan.lowest = min
      (boundsWithin rating (windowAfter config elapsedMs)).1 maxSkillRating ∧
    scan.highest = min
      (boundsWithin rating (windowAfter config elapsedMs)).2 maxSkillRating

/-- The outcome of an attempt is right about the players. -/
def Justified (config : Config) (players : List Player) (state : WorkerState)
    (outcome : MatchAttemptResult) (state' : WorkerState) (survey : Survey) :
    Prop :=
  match outcome with
  | .poolEmpty => players = []
  | .insufficientCandidates found _ seedMmr _ =>
      found < matchSize ∧
      (∃ seed : Player, seed.skillRating = seedMmr ∧
        state'.currentSeedId = some seed.id ∧
        (state.consecutiveFailures < seedRetryLimit →
          ∀ player ∈ players, seed.seedKey ≤ player.seedKey)) ∧
      ∃ scan, survey.scanned = some scan ∧ scan.Around config seedMmr ∧
        (players.filter scan.Covers).length ≤ found
  | .claimFailed claimed needed =>
      claimed < needed ∧
      ∃ scan rating, survey.scanned = some scan ∧
        scan.Around config rating ∧
        (scan.entries.length < maxCandidatesPerScan →
          ∀ player ∈ players, ¬ scan.Covers player)
  | .success _ =>
      ∃ scan rating, survey.scanned = some scan ∧
        scan.Around config rating ∧ survey.published.length = matchSize ∧
        (scan.entries.length < maxCandidatesPerScan →
          ∀ player ∈ players, scan.Covers player →
            player ∉ survey.published ∧ ∀ other ∈ survey.published,
              other.seedKey ≤ player.seedKey)

/-- What an operation answers while the players are available, before and after
it. -/
def Operation.Steady (players : List Player) :
    (operation : Operation) → operation.Result → Prop
  | .primaryIter, entries => players ⊆ entries
  | .loadState player, state => player ∈ players → state = .waiting
  | .upgrade player, alive => player ∈ players → alive = true
  | .indexRange lower upper, entries => ∀ player ∈ players,
      (compareKeys lower player.ratingKey).isLE →
      (compareKeys player.ratingKey upper).isLE → player ∈ entries
  | .exchange player (.tryClaim ..), _ => player ∉ players
  | _, _ => True

@[reducible] def steadying (players : List Player) : Contract memory where
  Role := Unit
  Ghost := Survey
  initial := ⟨none, []⟩
  next := Survey.next
  Allowed := fun _ _ _ => True
  Credible := Operation.Steady players

abbrev Surveys (players : List Player) (post : α → Survey → Prop)
    (task : Task α) (survey : Survey) : Prop :=
  (steadying players).Obeys () post task survey

section Tasks

variable {players : List Player} {survey : Survey}

theorem surveys_access_bind {post : α → Survey → Prop} {operation : Operation}
    {rest : operation.Result → Task α} :
    Surveys players post (access operation >>= rest) survey ↔
      True ∧ ∀ result, operation.Steady players result →
        Surveys players post (rest result) (survey.next operation result) :=
  Iff.rfl

theorem surveys_filterWaiting (admits : Player → Bool)
    (entries : List Player) :
    Surveys players (fun found later => later = survey ∧
        ∀ player ∈ players, player ∈ entries → admits player →
          player ∈ found)
      (PlayerPool.filterWaiting admits entries) survey := by
  induction entries with
  | nil => exact ⟨rfl, fun _ _ member => absurd member List.not_mem_nil⟩
  | cons entry rest induction =>
      refine surveys_access_bind.mpr ⟨trivial, fun state steady => ?_⟩
      apply induction.bind
      intro kept _ found
      obtain ⟨rfl, found⟩ := found
      refine ⟨rfl, ?_⟩
      intro player among member admitted
      rcases List.mem_cons.mp member with rfl | member
      · rw [steady among]
        simp [admitted]
      · have kept := found player among member admitted
        split
        · exact List.mem_cons_of_mem _ kept
        · exact kept

/-- The seed of a walk that meets all the players is older than each of them. -/
theorem surveys_oldestWaiting :
    Surveys players (fun oldest later => later = survey ∧
        (oldest = none → players = []) ∧
        ∀ seed ∈ oldest, ∀ player ∈ players,
          seed.seedKey ≤ player.seedKey)
      PlayerPool.oldestWaiting survey := by
  refine surveys_access_bind.mpr ⟨trivial, fun entries steady => ?_⟩
  apply (surveys_filterWaiting (fun _ => true) entries).bind
  intro waiting _ found
  obtain ⟨rfl, found⟩ := found
  have among : ∀ player ∈ players, player ∈ waiting :=
    fun player member => found player member (steady member) rfl
  have least := PlayerPool.least_minBySeedKey waiting
  refine ⟨rfl, ?_, ?_⟩
  · intro none
    rw [none] at least
    apply List.eq_nil_iff_forall_not_mem.mpr
    intro player member
    have empty : waiting = [] := least
    exact List.not_mem_nil (empty ▸ among player member)
  · intro seed chosen player member
    rw [Option.mem_def.mp chosen] at least
    exact least.2 player (among player member)

theorem surveys_oldestWaitingExcludingRange (excludeMin excludeMax : Nat) :
    Surveys players (fun _ later => later = survey)
      (PlayerPool.oldestWaitingExcludingRange excludeMin excludeMax)
      survey := by
  refine surveys_access_bind.mpr ⟨trivial, fun entries _ => ?_⟩
  apply (surveys_filterWaiting _ entries).bind
  exact fun _ _ found => found.1

theorem surveys_scanBounds (skillRating : Nat) (joinTimestamp : Instant)
    (config : Config) :
    Surveys players (fun bounds later => later = survey ∧ ∃ elapsedMs,
        bounds = boundsWithin skillRating (windowAfter config elapsedMs))
      (scanBounds skillRating joinTimestamp config) survey :=
  surveys_access_bind.mpr ⟨trivial, fun _ _ => ⟨rfl, _, rfl⟩⟩

theorem surveys_relaxationStage (joinTimestamp : Instant) (config : Config) :
    Surveys players (fun _ later => later = survey)
      (relaxationStage joinTimestamp config) survey :=
  surveys_access_bind.mpr ⟨trivial, fun _ _ => rfl⟩

theorem surveys_selectSeed (ctx : WorkerContext) (state : WorkerState) :
    Surveys players (fun found later => later = survey ∧
        (found = none → players = []) ∧
        (state.consecutiveFailures < seedRetryLimit → ∀ seed ∈ found,
          ∀ player ∈ players, seed.seedKey ≤ player.seedKey))
      (selectSeed ctx state) survey := by
  apply surveys_oldestWaiting.bind
  intro oldest _ found
  obtain ⟨rfl, none, least⟩ := found
  cases oldest with
  | none => exact ⟨rfl, none, fun _ _ => nofun⟩
  | some primarySeed =>
      dsimp only
      split
      · rename_i diverted
        apply (surveys_scanBounds _ _ _).bind
        intro bounds _ found
        obtain ⟨rfl, _⟩ := found
        apply (surveys_oldestWaitingExcludingRange _ _).bind
        intro alternate _ unmoved
        subst unmoved
        refine ⟨rfl, ?_, ?_⟩
        · cases alternate <;> exact nofun
        · intro few
          have many := diverted.2
          omega
      · exact ⟨rfl, none, fun _ => least⟩

theorem surveys_scanEntries (entries candidates : List Player) :
    Surveys players (fun found later => later = survey ∧
        candidates ⊆ found ∧
        found.length ≤ candidates.length + entries.length ∧
        (found.length < maxCandidatesPerScan →
          ∀ player ∈ players, player ∈ entries → player ∈ found))
      (PlayerPool.scanEntries entries candidates) survey := by
  induction entries generalizing candidates with
  | nil =>
      exact ⟨rfl, List.Subset.refl _, Nat.le_refl _,
        fun _ _ _ member => absurd member List.not_mem_nil⟩
  | cons entry rest induction =>
      have skip : entry ∉ players →
          Surveys players (fun found later => later = survey ∧
            candidates ⊆ found ∧
            found.length ≤ candidates.length + (entry :: rest).length ∧
            (found.length < maxCandidatesPerScan →
              ∀ player ∈ players, player ∈ entry :: rest → player ∈ found))
            (PlayerPool.scanEntries rest candidates) survey := by
        intro other
        apply (induction candidates).mono
        intro found later walked
        obtain ⟨same, kept, bound, all⟩ := walked
        refine ⟨same, kept, by rw [List.length_cons]; omega, ?_⟩
        intro few player among member
        rcases List.mem_cons.mp member with rfl | member
        · exact absurd among other
        · exact all few player among member
      unfold PlayerPool.scanEntries
      refine surveys_access_bind.mpr ⟨trivial, fun alive steady => ?_⟩
      cases alive with
      | false => exact skip fun among => Bool.noConfusion (steady among)
      | true =>
          refine surveys_access_bind.mpr ⟨trivial, fun state steady => ?_⟩
          have grown : (candidates ++ [entry]).length =
              candidates.length + 1 := List.length_append
          split
          · rename_i differs
            exact skip fun among => differs (steady among)
          · split
            · rename_i full
              refine ⟨rfl, List.subset_append_left .., ?_, ?_⟩
              · rw [List.length_cons]
                omega
              · intro few
                omega
            · apply (induction (candidates ++ [entry])).mono
              intro found later walked
              obtain ⟨same, kept, bound, all⟩ := walked
              refine ⟨same, fun _ member => kept
                (List.mem_append_left _ member), ?_, ?_⟩
              · rw [List.length_cons]
                omega
              · intro few player among member
                rcases List.mem_cons.mp member with rfl | member
                · exact kept (List.mem_append_right _
                    (List.mem_singleton_self _))
                · exact all few player among member

/-- Players of the covered ratings are candidates, unless the scan stopped at
its cap. -/
theorem surveys_rangeScan (minRating maxRating : Nat) {published : List Player} :
    Surveys players (fun found later => ∃ scan,
        later = ⟨some scan, published⟩ ∧
        scan.lowest = min minRating maxSkillRating ∧
        scan.highest = min maxRating maxSkillRating ∧
        (found.Pairwise fun first second =>
          first.seedKey ≤ second.seedKey) ∧
        found.length ≤ scan.entries.length ∧
        (found.length < maxCandidatesPerScan → ∀ player ∈ players,
          scan.Covers player → player ∈ found))
      (PlayerPool.rangeScan minRating maxRating) ⟨none, published⟩ := by
  refine surveys_access_bind.mpr ⟨trivial, fun entries steady => ?_⟩
  apply (surveys_scanEntries entries []).bind
  intro kept _ walked
  obtain ⟨rfl, _, bound, all⟩ := walked
  have perm : (PlayerPool.sortCandidates kept).Perm kept :=
    List.perm_insertionSort _ _
  refine ⟨_, rfl, rfl, rfl, List.pairwise_insertionSort _ _, ?_, ?_⟩
  · rw [perm.length_eq]
    simpa using bound
  · intro few player member covered
    rw [perm.length_eq] at few
    apply perm.mem_iff.mpr
    apply all few player member
    apply steady player member
    · have lower : uuidNil ≤ player.id := Fin.zero_le _
      rw [compareKeys_isLE]
      exact (Nat.lt_or_eq_of_le covered.1).imp_right fun same => ⟨same, lower⟩
    · have upper : player.id ≤ uuidMax := Fin.le_last _
      rw [compareKeys_isLE]
      exact (Nat.lt_or_eq_of_le covered.2).imp_right fun same => ⟨same, upper⟩

theorem Unpublishing.surveys {task : Task α} {post : α → Prop} {scan : Scan}
    {published : List Player} (unpublishing : Unpublishing task post) :
    Surveys players
      (fun value later => post value ∧ later = ⟨some scan, published⟩)
      task ⟨some scan, published⟩ := by
  apply Contract.Obeys.of_still (fun _ _ => trivial) ?_ unpublishing
  intro operation result quiet
  cases operation <;> first
    | rfl
    | cases quiet

/-- What a claiming loop over the candidates has come to. -/
structure Claims (players candidates claimed found : List Player) : Prop where
  few : found.length ≤ matchSize
  free : ∀ other ∈ found, other ∈ claimed ∨ other ∉ players
  full : ∀ player ∈ players, player ∈ candidates → matchSize ≤ found.length
  older : ∀ player ∈ players, player ∈ candidates → ∀ other ∈ found,
    other ∈ claimed ∨ other.seedKey ≤ player.seedKey

/-- The loop does not get past a player that stays available: it would claim
the player. -/
theorem surveys_claimCandidates (workerId nowMs : Nat)
    {candidates : List Player} {claimed : List Player}
    (few : claimed.length ≤ matchSize)
    (sorted : candidates.Pairwise fun first second =>
      first.seedKey ≤ second.seedKey) :
    Surveys players (fun found later => later = survey ∧
        Claims players candidates claimed found)
      (claimCandidates workerId nowMs candidates claimed) survey := by
  induction candidates generalizing claimed with
  | nil =>
      exact ⟨rfl, few, fun _ member => .inl member,
        fun _ _ member => absurd member List.not_mem_nil,
        fun _ _ member => absurd member List.not_mem_nil⟩
  | cons candidate rest induction =>
      obtain ⟨below, sorted⟩ := List.pairwise_cons.mp sorted
      unfold claimCandidates
      split
      · rename_i full
        exact ⟨rfl, few, fun _ member => .inl member,
          fun _ _ _ => Nat.le_of_eq full.symm, fun _ _ _ _ => .inl⟩
      · rename_i short
        refine surveys_access_bind.mpr ⟨trivial, fun success other => ?_⟩
        have later : ∀ player ∈ players, player ∈ candidate :: rest →
            player ∈ rest := by
          intro player among member
          rcases List.mem_cons.mp member with rfl | member
          · exact absurd among other
          · exact member
        cases success with
        | false =>
            apply (induction few sorted).mono
            intro found _ walked
            obtain ⟨same, claims⟩ := walked
            exact ⟨same, claims.few, claims.free,
              fun player among member =>
                claims.full player among (later player among member),
              fun player among member =>
                claims.older player among (later player among member)⟩
        | true =>
            refine surveys_access_bind.mpr ⟨trivial, fun _ _ => ?_⟩
            refine surveys_access_bind.mpr ⟨trivial, fun _ _ => ?_⟩
            have room : (claimed ++ [candidate]).length ≤ matchSize := by
              rw [List.length_append, List.length_singleton]
              omega
            apply (induction room sorted).mono
            intro found _ walked
            obtain ⟨same, claims⟩ := walked
            have split : ∀ {taken}, taken ∈ claimed ++ [candidate] →
                taken ∈ claimed ∨ taken = candidate := by
              intro taken member
              exact (List.mem_append.mp member).imp_right
                List.mem_singleton.mp
            refine ⟨same, claims.few, ?_, ?_, ?_⟩
            · intro taken inside
              rcases claims.free taken inside with earlier | free
              · apply (split earlier).imp_right
                intro equal
                rw [equal]
                exact other
              · exact .inr free
            · intro player among member
              exact claims.full player among (later player among member)
            · intro player among member taken inside
              have still := later player among member
              rcases claims.older player among still taken inside with
                earlier | older
              · apply (split earlier).imp_right
                intro equal
                rw [equal]
                exact below player still
              · exact .inr older

theorem surveys_completeMatch (ctx : WorkerContext) (state : WorkerState)
    {claimed published : List Player} {scan : Scan}
    (ten : claimed.length = matchSize) :
    Surveys players (fun outcome later =>
        (∃ completedMatch, outcome.1 = .success completedMatch) ∧
        later.scanned = some scan ∧ later.published.Perm claimed)
      (completeMatch ctx state claimed) ⟨some scan, published⟩ := by
  have marking : Unpublishing (forM claimed Player.markMatched) _ :=
    Program.Yields.forM (fun player =>
      player.yields_markMatched rfl (fun _ => rfl) rfl) claimed
  apply marking.surveys.bind
  intro _ _ found
  obtain ⟨_, rfl⟩ := found
  apply (reads_buildMatch claimed _).looks.unpublishing.surveys.bind
  intro outcome _ found
  obtain ⟨_, rfl⟩ := found
  have removing : Unpublishing (forM claimed fun player => do
      let _ ← PlayerPool.remove player.id) _ :=
    yields_removing claimed (fun _ => rfl) fun _ => rfl
  apply removing.surveys.bind
  intro _ _ found
  obtain ⟨_, rfl⟩ := found
  refine surveys_access_bind.mpr ⟨trivial, fun _ _ => ?_⟩
  apply (looks_updateMetricsOnSuccess _ _ _).unpublishing.surveys.bind
  intro _ _ found
  obtain ⟨_, rfl⟩ := found
  exact ⟨⟨_, rfl⟩, rfl, teams_perm ten⟩

theorem WorkerState.currentSeedId_recordFailure (state : WorkerState)
    (seedId : Uuid) :
    (state.recordFailure seedId).currentSeedId = some seedId := by
  unfold recordFailure
  split
  · assumption
  · rfl

/-- The claims of an attempt whose candidates include the covered players. -/
theorem surveys_claimMatch {ctx : WorkerContext} (state : WorkerState)
    (seed : Player) {candidates published : List Player} {scan : Scan}
    {rating : Nat} (around : scan.Around ctx.config rating)
    (sorted : candidates.Pairwise fun first second =>
      first.seedKey ≤ second.seedKey)
    (short : candidates.length ≤ scan.entries.length)
    (covers : candidates.length < maxCandidatesPerScan →
      ∀ player ∈ players, scan.Covers player → player ∈ candidates) :
    Surveys players (fun outcome later =>
        Justified ctx.config players state outcome.1 outcome.2 later)
      (claimMatch ctx state seed candidates) ⟨some scan, published⟩ := by
  refine surveys_access_bind.mpr ⟨trivial, fun nowMs _ => ?_⟩
  apply (surveys_claimCandidates ctx.workerId nowMs (Nat.zero_le _)
    sorted).bind
  intro claimed _ found
  obtain ⟨rfl, claims⟩ := found
  split
  · rename_i few
    have releasing : Unpublishing (forM claimed Player.releaseClaim) _ :=
      Program.Yields.forM (fun player =>
        player.yields_releaseClaim rfl rfl rfl) claimed
    apply releasing.surveys.bind
    intro _ _ found
    obtain ⟨_, rfl⟩ := found
    refine surveys_access_bind.mpr ⟨trivial, fun _ _ => ?_⟩
    refine ⟨few, scan, rating, rfl, around, ?_⟩
    intro room player among covered
    have full := claims.full player among
      (covers (by omega) player among covered)
    omega
  · rename_i enough
    apply (surveys_completeMatch ctx state
      (Nat.le_antisymm claims.few (Nat.le_of_not_lt enough))).mono
    intro outcome later completed
    obtain ⟨⟨completedMatch, success⟩, scanned, perm⟩ := completed
    rw [success]
    refine ⟨scan, rating, scanned, around, ?_, ?_⟩
    · rw [perm.length_eq]
      exact Nat.le_antisymm claims.few (Nat.le_of_not_lt enough)
    · intro room player among covered
      have candidate := covers (by omega) player among covered
      constructor
      · intro member
        rcases claims.free player (perm.mem_iff.mp member) with none | free
        · exact List.not_mem_nil none
        · exact free among
      · intro other member
        rcases claims.older player among candidate other
          (perm.mem_iff.mp member) with none | older
        · exact absurd none List.not_mem_nil
        · exact older

theorem surveys_attemptMatch (ctx : WorkerContext) (state : WorkerState)
    (distinct : players.Nodup) :
    Surveys players (fun outcome later =>
        Justified ctx.config players state outcome.1 outcome.2 later)
      (attemptMatch ctx state) ⟨none, []⟩ := by
  apply (surveys_selectSeed ctx state).bind
  intro found _ selected
  obtain ⟨rfl, none, least⟩ := selected
  cases found with
  | none => exact none rfl
  | some seed =>
      apply (surveys_scanBounds _ _ _).bind
      intro bounds _ found
      obtain ⟨rfl, elapsedMs, rfl⟩ := found
      apply (surveys_relaxationStage _ _).bind
      intro stage _ unmoved
      subst unmoved
      refine surveys_access_bind.mpr ⟨trivial, fun _ _ => ?_⟩
      apply (surveys_rangeScan _ _).bind
      intro candidates _ found
      obtain ⟨scan, rfl, lowest, highest, sorted, short, covers⟩ := found
      have around : scan.Around ctx.config seed.skillRating :=
        ⟨elapsedMs, lowest, highest⟩
      split
      · rename_i few
        refine surveys_access_bind.mpr ⟨trivial, fun _ _ => ?_⟩
        refine ⟨few, ⟨seed, rfl, state.currentSeedId_recordFailure seed.id,
          fun steady => least steady seed rfl⟩, scan, rfl, around, ?_⟩
        apply List.Subperm.length_le
        apply List.subperm_of_subset (distinct.filter _)
        intro player member
        obtain ⟨among, covered⟩ := List.mem_filter.mp member
        apply covers ?_ player among (of_decide_eq_true covered)
        simp only [matchSize] at few
        simp only [maxCandidatesPerScan]
        omega
      · exact surveys_claimMatch state seed around sorted short covers

end Tasks

/-- What a call has surveyed. -/
abbrev surveyOf (caller : Nat) (trace : Trace) : Survey :=
  (steadying []).ghost caller trace

theorem surveyOf_eq (players : List Player) (caller : Nat) (trace : Trace) :
    (steadying players).ghost caller trace = surveyOf caller trace :=
  @Contract.ghost_map _ (steadying players) (steadying []) id rfl
    (fun _ _ _ => rfl) caller trace

/-- All the players are available. -/
def System.Offers (players : List Player) (system : System) : Prop :=
  ∀ player ∈ players, Available system.world player

instance (players : List Player) (system : System) :
    Decidable (system.Offers players) :=
  inferInstanceAs (Decidable (∀ player ∈ players, _))

theorem Core.steady {core : Core} {players : List Player} {choice : Choice}
    (before : ∀ player ∈ players, Available core player)
    (operation : Operation)
    (after : ∀ player ∈ players,
      Available (core.perform choice operation).2 player) :
    operation.Steady players (core.perform choice operation).1 := by
  cases operation with
  | primaryIter =>
      intro player member
      apply (choice.walk_perm core.primary.players).mem_iff.mpr
      exact Primary.mem_players.mpr ⟨player.id, (before player member).stored⟩
  | loadState player => exact fun member => (before player member).waiting
  | upgrade player =>
      intro member
      show (decide _ || _) = true
      rw [decide_eq_true (before player member).stored, Bool.true_or]
  | indexRange lower upper =>
      intro player member above below
      exact mem_indexRange.mpr
        ⟨player.ratingKey, (before player member).indexed, above, below⟩
  | exchange player site =>
      cases site with
      | tryClaim workerId nowMs =>
          intro member
          have claimed := (after player member).waiting
          simp [Core.perform, Core.exchange, (before player member).waiting,
            Exchange.current, Exchange.new, Core.setCells] at claimed
      | _ => exact trivial
  | _ => exact trivial

theorem System.stands_throughout {config : Config} {players : List Player}
    {first second : System} {caller : Nat}
    {post : Response → Survey → Prop}
    (throughout : Throughout (System.step config) (System.Offers players)
      first second)
    (stands : first.Stands (steadying players) () post caller) :
    second.Stands (steadying players) () post caller := by
  induction throughout with
  | start => exact stands
  | @step system action system' _ steady moved induction =>
      obtain ⟨before, after⟩ := steady
      cases action with
      | start request =>
          obtain ⟨task, _, rfl⟩ := Option.map_eq_some_iff.mp moved
          exact induction.launch request task
      | tick instant unixMs =>
          cases moved
          exact induction
      | step mover choice =>
          apply induction.advance moved
          intro operation performed
          have offered := after system' moved
          rw [System.Offers, performed] at offered
          exact Core.steady before operation offered

/-- An attempt overlooks no player that stays available from its start to its
return: it finds the pool empty only if there is no such player, finds too few
candidates only if there are too few of them in its window, and matches others
of its window only if they come before every one of them in the order of the
queue. -/
theorem attempt_overlooks_none {config : Config} {clock : Clock}
    {before started after : System} {workerId : Nat} {state : WorkerState}
    (run : Run config clock .free before)
    (idle : workerState workerId before.calls = some state)
    (start : before.step config (.start (.attemptMatch workerId)) =
      some started)
    {players : List Player} (distinct : players.Nodup)
    (throughout : Throughout (System.step config) (System.Offers players)
      started after)
    {outcome : MatchAttemptResult} {state' : WorkerState}
    (returned : after.calls[before.calls.length]? =
      some ⟨.attemptMatch workerId, .pure (.attemptMatch outcome state')⟩) :
    Justified config players state outcome state'
      (surveyOf before.calls.length after.trace) := by
  obtain ⟨task, launched, rfl⟩ := Option.map_eq_some_iff.mp start
  rw [System.program, idle] at launched
  have stands : (before.launch (.attemptMatch workerId) task).Stands
      (steadying players) () (fun response survey =>
        ∀ outcome state', response = .attemptMatch outcome state' →
          Justified config players state outcome state' survey)
      before.calls.length := by
    cases launched
    apply Pool.Stands.launched (Run.sound run).traced
    apply (surveys_attemptMatch ⟨workerId, config, matchHistoryLimit⟩ state
      distinct).map
    intro outcome later justified _ _ same
    cases same
    exact justified
  have justified := (System.stands_throughout throughout stands).returned
    returned outcome state' rfl
  rw [surveyOf_eq] at justified
  exact justified

theorem throughout_of_schedule {config : Config} {players : List Player}
    {first second : System} {actions : List Action}
    (ran : schedule (System.step config) (fun system action =>
      decide (system.Offers players) && (system.step config action).all
        fun system' => decide (system'.Offers players)) first actions =
          some second) :
    Throughout (System.step config) (System.Offers players) first second := by
  apply Reachable.schedule ?_ .start ran
  intro system action checked
  obtain ⟨before, after⟩ := Bool.and_eq_true_iff.mp checked
  refine ⟨of_decide_eq_true before, ?_⟩
  intro system' moved
  exact of_decide_eq_true ((Option.all_eq_true _ _).mp after system' moved)

/-- The call is an attempt of worker 1 that succeeded. -/
def System.succeeded? (system : System) (caller : Nat) :
    Option (Match × WorkerState) :=
  match system.calls[caller]? with
  | some ⟨.attemptMatch 1,
      .pure (.attemptMatch (.success completedMatch) state)⟩ =>
      some (completedMatch, state)
  | _ => none

theorem System.found_of_succeeded {system : System} {caller : Nat}
    {completedMatch : Match} {state : WorkerState}
    (succeeded : system.succeeded? caller = some (completedMatch, state)) :
    system.calls[caller]? = some ⟨.attemptMatch 1,
      .pure (.attemptMatch (.success completedMatch) state)⟩ := by
  unfold succeeded? at succeeded
  split at succeeded
  · rename_i found
    cases succeeded
    exact found
  · cases succeeded

set_option maxRecDepth 100000 in
/-- The last of eleven players is passed over, while a twelfth one arrives. -/
theorem attempt_overlooks_none_eleven :
    ∃ (before after : System) (completedMatch : Match) (state' : WorkerState),
      Run .default ⟨0, 1000⟩ .free before ∧
      Justified .default [⟨10, 11, 1500, 0⟩] .new (.success completedMatch)
        state' (surveyOf before.calls.length after.trace) ∧
      (surveyOf before.calls.length after.trace).published.length = 10 := by
  obtain ⟨before, run, check⟩ : ∃ before,
      Run .default ⟨0, 1000⟩ .free before ∧
        (decide (workerState 1 before.calls = some .new) &&
          (before.step .default (.start (.attemptMatch 1))).any fun started =>
            (schedule (System.step .default) (fun system action =>
              decide (system.Offers [⟨10, 11, 1500, 0⟩]) &&
                (system.step .default action).all fun system' =>
                  decide (system'.Offers [⟨10, 11, 1500, 0⟩])) started
              (turns 11 60 ++ .start (.enqueue 12 1500) :: turns 12 8 ++
                turns 11 90)).any fun after =>
              decide ((surveyOf before.calls.length
                after.trace).published.length = 10) &&
              (after.succeeded? before.calls.length).isSome) = true := by
    apply exists_run_of_play (arrivals 11 1500)
    decide +kernel
  obtain ⟨idle, further⟩ := Bool.and_eq_true_iff.mp check
  obtain ⟨started, start, further⟩ := (Option.any_eq_true _ _).mp further
  obtain ⟨after, ran, further⟩ := (Option.any_eq_true _ _).mp further
  obtain ⟨ten, further⟩ := Bool.and_eq_true_iff.mp further
  obtain ⟨⟨completedMatch, state'⟩, succeeded⟩ :=
    Option.isSome_iff_exists.mp further
  exact ⟨before, after, completedMatch, state', run,
    attempt_overlooks_none run (of_decide_eq_true idle) start
      (List.nodup_singleton _) (throughout_of_schedule ran)
      (System.found_of_succeeded succeeded),
    of_decide_eq_true ten⟩

end Matchmaker
