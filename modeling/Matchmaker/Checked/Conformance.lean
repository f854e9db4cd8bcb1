import Matchmaker.Checked.Dating
import Matchmaker.Engine.Split
import Matchmaker.Stores

namespace Matchmaker

open Concurrent Words

/-! No check of the match path fails. -/

namespace Panic

variable {panic : Panic}

theorem onNone_ok {result? : Option α} {value : α}
    (found : result? = some value) : panic.onNone result? = .ok value := by
  subst found
  rfl

theorem onNone_bind {result? : Option α} {value : α}
    (found : result? = some value) (rest : α → Except Panic β) :
    panic.onNone result? >>= rest = rest value := by
  rw [onNone_ok found]
  rfl

theorem check_ok {condition : Bool} (holds : condition = true) :
    panic.check condition = .ok () := by
  subst holds
  rfl

theorem check_bind {condition : Bool} (holds : condition = true)
    (rest : Unit → Except Panic β) :
    panic.check condition >>= rest = rest () := by
  rw [check_ok holds]
  rfl

end Panic

namespace Checked

section Balance

variable {players : List Player}
  (bounded : ∀ player ∈ players, player.skillRating ≤ maxSkillRating)
include bounded

/-- Ten ratings are far from filling a `u32`. -/
theorem ratings_le {places : List Nat} (few : places.length ≤ matchSize) :
    (places.map (ratingAt players)).sum ≤ 30000 := by
  have each := List.sum_le_card_nsmul (places.map (ratingAt players))
    maxSkillRating
  simp only [List.mem_map, List.length_map, Nat.nsmul_eq_mul] at each
  apply (each ?_).trans
  · exact Nat.mul_le_mul_right maxSkillRating few
  · intro rating listed
    obtain ⟨place, _, rfl⟩ := listed
    exact ratingAt_le bounded place

theorem sum_ratings {places : List Nat} (few : places.length ≤ matchSize) :
    sum? 32 (places.map (ratingAt players)) =
      some ((places.map (ratingAt players)).sum % 2 ^ 32) := by
  have small := ratings_le bounded few
  rw [Nat.mod_eq_of_lt (by omega)]
  exact sum?_eq_some (by omega)

theorem sum_mask (mask : Nat) :
    sum? 32 (((List.range matchSize).filter mask.testBit).map
      (ratingAt players)) = some (maskSum players mask) := by
  have few := List.length_filter_le mask.testBit (List.range matchSize)
  rw [List.length_range] at few
  exact sum_ratings bounded few

theorem doubled_maskSum (mask : Nat) :
    mul? 32 2 (maskSum players mask) =
      some (2 * maskSum players mask % 2 ^ 32) := by
  have few := List.length_filter_le mask.testBit (List.range matchSize)
  rw [List.length_range] at few
  have small := ratings_le bounded few
  have doubled : 2 * maskSum players mask < 2 ^ 32 := by
    rw [maskSum, Nat.mod_eq_of_lt (by omega)]
    omega
  rw [Nat.mod_eq_of_lt doubled]
  exact fit?_eq_some doubled

theorem consider_passes (totalSum : Nat) (best : Matchmaker.BestSplit)
    (mask : Nat) :
    BestSplit.consider players totalSum best mask =
      .ok (best.consider players totalSum mask) := by
  unfold BestSplit.consider Matchmaker.BestSplit.consider
  split
  · rfl
  · rw [Panic.onNone_bind (sum_mask bounded mask),
      Panic.onNone_bind (doubled_maskSum bounded mask)]
    rfl

theorem bestSplit_passes (totalSum : Nat) :
    (List.range 1024).foldlM (BestSplit.consider players totalSum)
        { mask := 0, delta := 2 ^ 32 - 1, aSum := 0 } =
      .ok (bestSplit players totalSum) := by
  have pointwise : BestSplit.consider players totalSum =
      fun best mask => pure (best.consider players totalSum mask) := by
    funext best mask
    exact consider_passes bounded totalSum best mask
  rw [pointwise, List.foldlM_pure]
  rfl

theorem exhaustiveBalance_passes (ten : players.length = matchSize) :
    exhaustiveBalance players =
      .ok (Matchmaker.exhaustiveBalance players) := by
  have all : (List.range matchSize).length ≤ matchSize :=
    List.length_range.le
  obtain ⟨sizeA, sizeB, _⟩ := exhaustiveBalance_split ten bounded
  unfold exhaustiveBalance
  rw [Panic.check_bind (decide_eq_true ten),
    Panic.onNone_bind (sum_ratings bounded all), bestSplit_passes bounded]
  exact (Panic.check_bind (decide_eq_true sizeA) _).trans
    (Panic.check_bind (decide_eq_true sizeB) _)

end Balance

theorem captured_ratings {players : List Player}
    {snapshots : List PlayerSnapshot}
    (captured : List.Forall₂ (fun player snapshot =>
      PlayerSnapshot.skillRating snapshot = player.skillRating)
      players snapshots) :
    snapshots.map (·.skillRating) = players.map (·.skillRating) := by
  induction captured with
  | nil => rfl
  | cons same _ induction => simp [same, induction]

theorem teamNew_passes {players : List Player}
    {snapshots : List PlayerSnapshot}
    (captured : List.Forall₂ (fun player snapshot =>
      PlayerSnapshot.skillRating snapshot = player.skillRating)
      players snapshots) (five : players.length = teamSize)
    (rated : ∀ player ∈ players, player.skillRating ≤ maxSkillRating) :
    Team.new snapshots = .ok (Matchmaker.Team.new snapshots) := by
  have small : (snapshots.map (·.skillRating)).sum < 2 ^ 32 := by
    rw [captured_ratings captured]
    apply @sum_lt 32 maxSkillRating
    · intro rating listed
      obtain ⟨player, member, rfl⟩ := List.mem_map.mp listed
      exact rated player member
    · rw [List.length_map, five]
      decide
  unfold Team.new Matchmaker.Team.new
  rw [Panic.check_bind (decide_eq_true (captured.length_eq.symm.trans five)),
    Panic.onNone_bind (sum?_eq_some small), Nat.mod_eq_of_lt small]
  rfl

/-- Ten waits of less than `2 ^ 59` are within a `u64`. -/
theorem sum_waits {waitTimesMs : List Nat}
    (ten : waitTimesMs.length = matchSize)
    (short : ∀ wait ∈ waitTimesMs, wait < 2 ^ 59) :
    sum? 64 waitTimesMs = some (waitTimesMs.sum % 2 ^ 64) := by
  have small : waitTimesMs.sum < 2 ^ 64 := by
    apply @sum_lt 64 (2 ^ 59) _ fun wait member => (short wait member).le
    rw [ten]
    decide
  rw [Nat.mod_eq_of_lt small]
  exact sum?_eq_some small

theorem min_le_max (values : List Nat) :
    values.min?.getD 0 ≤ values.max?.getD 0 := by
  cases values with
  | nil => exact le_rfl
  | cons value rest =>
      have member := @List.mem_cons_self _ value rest
      exact (List.min?_getD_le_of_mem member).trans
        (List.le_max?_getD_of_mem member)

theorem boundsWithin_ordered {skillRating : Nat}
    (rated : skillRating ≤ maxSkillRating) (window : Nat) :
    (boundsWithin skillRating window).1 ≤
        (boundsWithin skillRating window).2 ∧
      sub? (boundsWithin skillRating window).2
          (boundsWithin skillRating window).1 =
        some (((boundsWithin skillRating window).2 + 2 ^ 32 -
          (boundsWithin skillRating window).1) % 2 ^ 32) := by
  have ordered : (boundsWithin skillRating window).1 ≤
      (boundsWithin skillRating window).2 := by
    simp only [boundsWithin, maxSkillRating] at rated ⊢
    omega
  have top : (boundsWithin skillRating window).2 ≤ maxSkillRating :=
    Nat.min_le_right ..
  refine ⟨ordered, ?_⟩
  rw [sub?_eq_some ordered]
  congr 1
  simp only [maxSkillRating] at top
  omega

end Checked

/-- The checked task does what the plain one does, and passes all checks. -/
abbrev Passes (dated : List Player) (checked : CheckedTask α) (task : Task α)
    (post : α → List Player → Prop) : Prop :=
  dating.Mirrors expects () post checked task dated

theorem passes_lift {dated : List Player} {task : Task α}
    {post : α → List Player → Prop}
    (obeys : dating.Obeys () post task dated) :
    Passes dated (liftM task) task post :=
  Contract.Mirrors.lift And.left obeys

theorem Undated.passes {dated : List Player} {task : Task α} {post : α → Prop}
    (undated : Undated task post) :
    Passes dated (liftM task) task fun value later =>
      post value ∧ later = dated :=
  passes_lift undated.finding

namespace Checked

section Tasks

variable {dated : List Player}

theorem rangeScan_passes {minRating maxRating : Nat}
    (ordered : minRating ≤ maxRating) :
    Passes dated (rangeScan minRating maxRating)
      (PlayerPool.rangeScan minRating maxRating) fun candidates _ =>
        ∀ player ∈ candidates, player.skillRating ≤ maxSkillRating := by
  have below : (compareKeys (min minRating maxSkillRating, uuidNil)
      (min maxRating maxSkillRating, uuidMax)).isLE := by
    rw [compareKeys_isLE]
    have ids : uuidNil ≤ uuidMax := Fin.zero_le _
    rcases Nat.lt_or_eq_of_le (inf_le_inf_right maxSkillRating ordered) with
      less | same
    · exact .inl less
    · exact .inr ⟨same, ids⟩
  apply Contract.Mirrors.check (Panic.check_ok below)
  apply (@Contract.Mirrors.request _ _ dating expects ()
    (.indexRange _ _) (fun entries _ => ∀ player ∈ entries,
      player.skillRating ≤ maxSkillRating) dated trivial
    fun _ expected => expected.1).bind
  intro entries _ rated
  apply (PlayerPool.reads_scanEntries entries []).undated.passes.bind
  intro candidates _ kept
  apply Contract.Mirrors.ok
  obtain ⟨⟨part, rfl, sublist⟩, _⟩ := kept
  intro player member
  have listed := (List.perm_insertionSort _ _).mem_iff.mp member
  exact rated player (sublist.subset listed)

/-- A player that the call has dated has a recorded wait. -/
theorem settledWaitMs_passes {player : Player} (member : player ∈ dated) :
    Passes dated (liftM player.settledWaitMs) player.settledWaitMs
      fun wait later => wait < 2 ^ 59 ∧ later = dated := by
  apply Contract.Mirrors.perform trivial
  intro matchedAt expected
  cases matchedAt with
  | none => exact absurd rfl (expected.2 member)
  | some matched =>
      apply Contract.Mirrors.pure
      have short := expected.1 matched rfl
      exact ⟨(matched.msSince_le player).trans_lt short, rfl⟩

theorem captures_pass {players : List Player} (five : players.length = teamSize)
    (rated : ∀ player ∈ players, player.skillRating ≤ maxSkillRating) :
    Passes dated
      (players.mapM fun player => liftM (PlayerSnapshot.capture player))
      (players.mapM PlayerSnapshot.capture) fun snapshots _ =>
        Team.new snapshots = .ok (Matchmaker.Team.new snapshots) := by
  have captured := @Contract.Mirrors.mapM _ Panic dating expects () _ _
    (fun player snapshot =>
      PlayerSnapshot.skillRating snapshot = player.skillRating)
    (fun _ => True) (fun player => liftM (PlayerSnapshot.capture player))
    PlayerSnapshot.capture players dated trivial ?_
  · apply captured.mono
    intro snapshots later both
    exact teamNew_passes both.1 five rated
  · intro player member later _
    apply (PlayerSnapshot.undated_capture player).passes.mono
    intro snapshot later' both
    exact ⟨both.1, trivial⟩

theorem waits_pass {claimed : List Player} (ten : claimed.length = matchSize)
    (marked : ∀ player ∈ claimed, player ∈ dated) :
    Passes dated
      (claimed.mapM fun player => liftM player.settledWaitMs)
      (claimed.mapM Player.settledWaitMs) fun waitTimesMs _ =>
        waitTimesMs.length = matchSize ∧
          sum? 64 waitTimesMs = some (waitTimesMs.sum % 2 ^ 64) := by
  have waits := @Contract.Mirrors.mapM _ Panic dating expects () _ _
    (fun _ wait => wait < 2 ^ 59) (· = dated)
    (fun player => liftM player.settledWaitMs) Player.settledWaitMs claimed
    dated rfl ?_
  · apply waits.mono
    intro waitTimesMs _ both
    have counted := both.1.length_eq.symm.trans ten
    refine ⟨counted, sum_waits counted ?_⟩
    intro wait member
    obtain ⟨index, bound, rfl⟩ := List.getElem_of_mem member
    exact both.1.get (both.1.length_eq ▸ bound) bound
  · intro player member later same
    subst same
    exact settledWaitMs_passes (marked player member)

theorem buildMatch_passes {claimed : List Player} {balance : BalanceResult}
    (ten : claimed.length = matchSize)
    (marked : ∀ player ∈ claimed, player ∈ dated)
    (rated : ∀ player ∈ claimed, player.skillRating ≤ maxSkillRating)
    (sizeA : balance.teamA.length = teamSize)
    (sizeB : balance.teamB.length = teamSize)
    (perm : (balance.teamA ++ balance.teamB).Perm claimed) :
    Passes dated (buildMatch claimed balance)
      (Matchmaker.buildMatch claimed balance) fun built _ =>
        sum? 64 built.2.1 = some (built.2.1.sum % 2 ^ 64) := by
  apply (waits_pass ten marked).bind
  intro waitTimesMs _ waits
  obtain ⟨counted, summed⟩ := waits
  apply Contract.Mirrors.check (Panic.onNone_ok summed)
  have divided : checkedDiv (waitTimesMs.sum % 2 ^ 64) waitTimesMs.length =
      some (waitTimesMs.sum % 2 ^ 64 / waitTimesMs.length) := by
    apply if_neg
    rw [counted]
    decide
  apply Contract.Mirrors.check (Panic.onNone_ok divided)
  apply Contract.Mirrors.check
    (Panic.onNone_ok (sub?_eq_some (min_le_max _)))
  apply (captures_pass sizeA ?_).bind
  · intro teamASnapshots _ teamA
    apply (captures_pass sizeB ?_).bind
    · intro teamBSnapshots _ teamB
      apply Contract.Mirrors.check teamA
      apply Contract.Mirrors.check teamB
      apply (@undated_access .newV4 rfl).passes.bind
      intro matchId _ _
      apply (@undated_access .unixMs rfl).passes.bind
      intro nowMs _ _
      exact Contract.Mirrors.ok summed
    · intro player member
      exact rated player (perm.mem_iff.mp (List.mem_append_right _ member))
  · intro player member
    exact rated player (perm.mem_iff.mp (List.mem_append_left _ member))

theorem updateMetricsOnSuccess_passes {completedMatch : Match}
    {waitTimesMs : List Nat} {skillSpread : Nat}
    (summed : sum? 64 waitTimesMs = some (waitTimesMs.sum % 2 ^ 64)) :
    Passes dated
      (updateMetricsOnSuccess completedMatch waitTimesMs skillSpread)
      (Matchmaker.updateMetricsOnSuccess completedMatch waitTimesMs
        skillSpread) fun _ _ => True := by
  apply (undated_fetchAdd _ _).passes.bind
  intro _ _ _
  apply (undated_fetchAdd _ _).passes.bind
  intro _ _ _
  apply (@undated_access (.addQueueSize _) rfl).passes.bind
  intro _ _ _
  apply Contract.Mirrors.check (Panic.onNone_ok summed)
  apply (undated_fetchAdd _ _).passes.bind
  intro _ _ _
  apply (undated_fetchAdd _ _).passes.bind
  intro _ _ _
  apply (undated_fetchAdd _ _).passes.bind
  intro _ _ _
  apply (undated_fetchAdd _ _).passes.bind
  intro _ _ _
  apply (undated_fetchAdd _ _).passes.mono
  intro _ _ _
  exact trivial

theorem completeMatch_passes (ctx : WorkerContext) (state : WorkerState)
    {claimed : List Player} (ten : claimed.length = matchSize)
    (rated : ∀ player ∈ claimed, player.skillRating ≤ maxSkillRating) :
    Passes dated (completeMatch ctx state claimed)
      (Matchmaker.completeMatch ctx state claimed) fun _ _ => True := by
  obtain ⟨sizeA, sizeB, perm⟩ := exhaustiveBalance_split ten rated
  apply Contract.Mirrors.check (exhaustiveBalance_passes rated ten)
  apply (passes_lift (dates_marking claimed)).bind
  intro _ _ marked
  apply (buildMatch_passes ten marked rated sizeA sizeB perm).bind
  intro built _ summed
  apply (Undated.passes
    (yields_removing claimed (fun _ => rfl) fun _ => rfl)).bind
  intro _ _ _
  apply (@undated_access (.pushHistory ..) rfl).passes.bind
  intro _ _ _
  apply (updateMetricsOnSuccess_passes summed).bind
  intro _ _ _
  exact Contract.Mirrors.ok trivial

theorem claimMatch_passes (ctx : WorkerContext) (state : WorkerState)
    (seed : Player) {candidates : List Player}
    (rated : ∀ player ∈ candidates, player.skillRating ≤ maxSkillRating) :
    Passes dated (claimMatch ctx state seed candidates)
      (Matchmaker.claimMatch ctx state seed candidates) fun _ _ => True := by
  apply (@undated_access .unixMs rfl).passes.bind
  intro nowMs _ _
  apply (Undated.passes (yields_claimCandidates (fun player =>
    player.yields_tryClaim rfl rfl rfl) candidates (Nat.zero_le _))).bind
  intro claimed _ found
  split
  · apply (Undated.passes (Program.Yields.forM (fun player =>
      player.yields_releaseClaim rfl rfl rfl) claimed)).bind
    intro _ _ _
    apply (undated_fetchAdd _ _).passes.bind
    intro _ _ _
    exact Contract.Mirrors.ok trivial
  · apply completeMatch_passes ctx state
    · exact le_antisymm found.1.1 (by omega)
    · intro player member
      exact rated player (found.1.2 member)

theorem attemptMatch_passes (ctx : WorkerContext) (state : WorkerState) :
    Passes dated (attemptMatch ctx state)
      (Matchmaker.attemptMatch ctx state) fun _ _ => True := by
  apply (passes_lift (finding_selectSeed ctx state)).bind
  intro found _ rated
  cases found with
  | none => exact Contract.Mirrors.ok trivial
  | some seed =>
      have rating : seed.skillRating ≤ maxSkillRating := rated.1 seed rfl
      apply (undated_scanBounds _ _ _).passes.bind
      intro bounds _ within
      obtain ⟨⟨window, rfl⟩, _⟩ := within
      obtain ⟨ordered, subtracted⟩ := boundsWithin_ordered rating window
      apply (reads_relaxationStage _ _).undated.passes.bind
      intro stage _ _
      apply Contract.Mirrors.check (Panic.onNone_ok subtracted)
      apply (undated_fetchAdd _ _).passes.bind
      intro _ _ _
      apply (rangeScan_passes ordered).bind
      intro candidates _ rated
      split
      · apply (undated_fetchAdd _ _).passes.bind
        intro _ _ _
        exact Contract.Mirrors.ok trivial
      · exact claimMatch_passes ctx state seed rated

end Tasks

end Checked

end Matchmaker
