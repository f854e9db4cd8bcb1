import Matchmaker.Engine.Split
import Matchmaker.Protocol.Looking

namespace Matchmaker

open Concurrent

/-! Effect of one operation on the progress of its caller. -/

namespace Progress

def setPhase (progress : Progress) (player : Player) (phase : Phase) :
    Progress :=
  { progress with phase := Function.update progress.phase player phase }

def setRemoval (progress : Progress) (removal : Removal) : Progress :=
  { progress with removal }

variable {progress : Progress} {player other : Player} {phase : Phase}

@[simp] theorem setPhase_self :
    (progress.setPhase player phase).phase player = phase := by
  simp [setPhase]

theorem setPhase_ne (distinct : other ≠ player) :
    (progress.setPhase player phase).phase other = progress.phase other := by
  simp [setPhase, distinct]

@[simp] theorem setPhase_setPhase (earlier : Phase) :
    (progress.setPhase player earlier).setPhase player phase =
      progress.setPhase player phase := by
  simp [setPhase]

theorem setPhase_same (equality : progress.phase player = phase) :
    progress.setPhase player phase = progress := by
  simp [setPhase, ← equality]

theorem setPhase_removal :
    (progress.setPhase player phase).removal = progress.removal := rfl

theorem setRemoval_same {remaining : Removal}
    (equality : progress.removal = remaining) :
    progress.setRemoval remaining = progress := by
  simp [setRemoval, ← equality]

private theorem phase_ite (change : Phase → Phase) :
    (fun other => if player = other then change (progress.phase other)
      else progress.phase other) =
      Function.update progress.phase player (change (progress.phase player)) := by
  funext other
  by_cases same : other = player
  · subst same
    simp
  · simp [same, Ne.symm same]

theorem next_exchange (site : Exchange) (success : Bool) :
    progress.next (.exchange player site) success =
      (progress.setPhase player
        ((progress.phase player).exchanged site success)).setRemoval
          (progress.removal.next (.exchange player site) success) := by
  simp only [next, Phase.next, Operation.learnt, List.append_nil,
    Enrolment.next, setPhase, setRemoval,
    phase_ite fun phase => phase.exchanged site success]

theorem next_exchange_keeping {site : Exchange} {success : Bool}
    (keeps : progress.removal.next (.exchange player site) success =
      progress.removal) :
    progress.next (.exchange player site) success =
      progress.setPhase player
        ((progress.phase player).exchanged site success) := by
  rw [next_exchange, keeps]
  exact setRemoval_same rfl

theorem next_storeClaimedBy (value : Nat) (result : Unit) :
    progress.next (.storeClaimedBy player value) result =
      progress.setPhase player (progress.phase player).storedClaimedBy := by
  simp only [next, Phase.next, Operation.learnt, List.append_nil,
    Enrolment.next, Removal.next, setPhase, phase_ite Phase.storedClaimedBy]

theorem next_storeClaimTimestamp (value : Nat) (result : Unit) :
    progress.next (.storeClaimTimestamp player value) result =
      progress.setPhase player (progress.phase player).storedClaimTimestamp := by
  simp only [next, Phase.next, Operation.learnt, List.append_nil,
    Enrolment.next, Removal.next, setPhase,
    phase_ite Phase.storedClaimTimestamp]

theorem next_storeMatchedAt (value : Instant) (result : Unit) :
    progress.next (.storeMatchedAt player value) result =
      progress.setPhase player .marking := by
  simp only [next, Phase.next, Operation.learnt, List.append_nil,
    Enrolment.next, Removal.next, setPhase, phase_ite fun _ => Phase.marking]

theorem next_loadClaimTimestamp (claimTs : Nat) :
    progress.next (.loadClaimTimestamp player) claimTs =
      progress.setPhase player (.suspected claimTs) := by
  simp only [next, Phase.next, Operation.learnt, List.append_nil,
    Enrolment.next, Removal.next, setPhase,
    phase_ite fun _ => Phase.suspected claimTs]

@[simp] theorem next_instantNow (now : Instant) :
    progress.next .instantNow now = progress := by
  simp only [next, Phase.next, Operation.learnt, List.append_nil,
    Enrolment.next, Removal.next]

@[simp] theorem next_loadState (state : PlayerState) :
    progress.next (.loadState player) state = progress := by
  simp only [next, Phase.next, Operation.learnt, List.append_nil,
    Enrolment.next, Removal.next]

@[simp] theorem next_loadClaimedBy (workerId : Nat) :
    progress.next (.loadClaimedBy player) workerId = progress := by
  simp only [next, Phase.next, Operation.learnt, List.append_nil,
    Enrolment.next, Removal.next]

end Progress

/-! The methods of a player. -/

/-- Nothing was marked, removed, added or published yet. -/
structure Progress.Unused (progress : Progress) : Prop where
  removal : progress.removal = .none
  enrolment : progress.enrolment = .none
  published : progress.published = []

theorem Progress.Unused.setPhase {progress : Progress}
    (unused : progress.Unused) (player : Player) (phase : Phase) :
    (progress.setPhase player phase).Unused :=
  ⟨unused.removal, unused.enrolment, unused.published⟩

theorem Progress.Unused.extends {progress later : Progress}
    (unused : progress.Unused) (extended : progress.Extends later) :
    later.Unused :=
  ⟨extended.removal.trans unused.removal,
    extended.enrolment.trans unused.enrolment,
    extended.published.trans unused.published⟩

namespace Player

variable {player : Player} {progress : Progress} {role : Role}

theorem obeys_tryClaim (workerId nowMs : Nat)
    (worker : role = .attemptMatch workerId)
    (known : player ∈ progress.known) (idle : progress.phase player = .idle)
    (now : progress.nowMs = some nowMs) :
    protocol.Obeys role
      (fun claimed later => later =
        if claimed then progress.setPhase player (.held workerId nowMs)
        else progress)
      (player.tryClaim workerId nowMs) progress := by
  refine obeys_access_bind.mpr ⟨⟨worker, known, idle, now⟩, ?_⟩
  intro success _
  rw [Progress.next_exchange_keeping rfl, idle]
  cases success with
  | false =>
      exact Progress.setPhase_same idle
  | true =>
      refine obeys_access_bind.mpr ⟨.inl ⟨nowMs, Progress.setPhase_self⟩, ?_⟩
      intro _ _
      rw [Progress.next_storeClaimedBy]
      refine obeys_access_bind.mpr ⟨.inl ⟨workerId, ?_⟩, ?_⟩
      · simp [Phase.exchanged, Phase.storedClaimedBy]
      · intro _ _
        rw [Progress.next_storeClaimTimestamp]
        simp [Phase.exchanged, Phase.storedClaimedBy,
          Phase.storedClaimTimestamp]

theorem obeys_releaseClaim {workerId nowMs : Nat}
    (held : progress.phase player = .held workerId nowMs) :
    protocol.Obeys role
      (fun _ later => later = progress.setPhase player .released)
      player.releaseClaim progress := by
  refine obeys_access_bind.mpr
    ⟨.inr ⟨rfl, .inl ⟨workerId, nowMs, held⟩⟩, ?_⟩
  intro _ _
  rw [Progress.next_storeClaimedBy, held]
  refine obeys_access_bind.mpr
    ⟨.inr ⟨rfl, .inl (by simp [Phase.storedClaimedBy])⟩, ?_⟩
  intro _ _
  rw [Progress.next_storeClaimTimestamp]
  refine obeys_access_bind.mpr ⟨?_, ?_⟩
  · simp [Operation.Allowed, Exchange.Allowed, Phase.storedClaimedBy,
      Phase.storedClaimTimestamp]
  · intro success _
    rw [Progress.next_exchange_keeping rfl]
    simp [Phase.exchanged]

theorem obeys_markMatched {workerId nowMs : Nat}
    (held : progress.phase player = .held workerId nowMs) :
    protocol.Obeys role
      (fun _ later => ∃ phase, (phase = .marked ∨ phase = .missed) ∧
        later = (progress.setPhase player phase).setRemoval
          { progress.removal with
            pending := progress.removal.pending ++ [player] })
      player.markMatched progress := by
  refine obeys_access_bind.mpr ⟨trivial, ?_⟩
  intro now _
  rw [Progress.next_instantNow]
  refine obeys_access_bind.mpr ⟨⟨workerId, nowMs, held⟩, ?_⟩
  intro _ _
  rw [Progress.next_storeMatchedAt]
  refine obeys_access_bind.mpr ⟨Progress.setPhase_self, ?_⟩
  intro success _
  rw [Progress.next_exchange, Progress.setPhase_removal,
    Progress.setPhase_setPhase]
  cases success with
  | true => exact ⟨.marked, .inl rfl, by simp [Phase.exchanged, Removal.next]⟩
  | false => exact ⟨.missed, .inr rfl, by simp [Phase.exchanged, Removal.next]⟩

end Player

/-! The loops of an attempt. -/

/-- The call holds exactly these players, and has done nothing else. -/
structure Holding (workerId nowMs : Nat) (claimed : List Player)
    (progress : Progress) : Prop where
  unused : progress.Unused
  phase : ∀ player, progress.phase player =
    if player ∈ claimed then .held workerId nowMs else .idle

theorem obeys_claimCandidates {role : Role} {progress : Progress}
    (workerId nowMs : Nat) (worker : role = .attemptMatch workerId)
    {rest claimed : List Player} (known : rest ⊆ progress.known)
    (distinct : (claimed ++ rest).Nodup)
    (now : progress.nowMs = some nowMs)
    (bound : claimed.length ≤ matchSize)
    (holding : Holding workerId nowMs claimed progress) :
    protocol.Obeys role
      (fun found later => found.Sublist (claimed ++ rest) ∧
        found.length ≤ matchSize ∧ Holding workerId nowMs found later)
      (claimCandidates workerId nowMs rest claimed) progress := by
  induction rest generalizing claimed progress with
  | nil => exact ⟨List.sublist_append_left .., bound, holding⟩
  | cons candidate rest induction =>
      unfold claimCandidates
      split
      · exact ⟨List.sublist_append_left .., bound, holding⟩
      · rename_i short
        have apart : candidate ∉ claimed := by
          intro member
          exact (List.nodup_append.mp distinct).2.2 candidate member candidate
            (List.mem_cons_self ..) rfl
        have idle : progress.phase candidate = .idle := by
          rw [holding.phase, if_neg apart]
        apply (Player.obeys_tryClaim workerId nowMs worker
          (known (List.mem_cons_self ..)) idle now).bind
        rintro success later rfl
        cases success with
        | false =>
            have shorter : (claimed ++ rest).Sublist
                (claimed ++ candidate :: rest) :=
              (List.Sublist.refl claimed).append (List.sublist_cons_self ..)
            apply (induction
              (fun player member => known (List.mem_cons_of_mem _ member))
              (distinct.sublist shorter) now bound holding).mono
            intro found later given
            obtain ⟨sublist, short, holding⟩ := given
            exact ⟨sublist.trans shorter, short, holding⟩
        | true =>
            have same : claimed ++ [candidate] ++ rest =
                claimed ++ candidate :: rest := by simp
            rw [← same] at distinct ⊢
            refine induction
              (fun player member => known (List.mem_cons_of_mem _ member))
              distinct now ?_ ⟨holding.unused.setPhase _ _, ?_⟩
            · simp only [List.length_append, List.length_singleton]
              omega
            · intro player
              by_cases equality : player = candidate
              · subst equality
                simp
              · simp [Progress.setPhase_ne equality, holding.phase, equality]

/-- Some of the claimed players are still to be given back. -/
structure RollingBack (workerId nowMs : Nat) (rest : List Player)
    (progress : Progress) : Prop where
  unused : progress.Unused
  distinct : rest.Nodup
  held : ∀ player ∈ rest, progress.phase player = .held workerId nowMs
  others : ∀ player, player ∉ rest →
    progress.phase player = .idle ∨ progress.phase player = .released

theorem obeys_rollback {role : Role} {progress : Progress}
    {workerId nowMs : Nat} {claimed : List Player} (distinct : claimed.Nodup)
    (holding : Holding workerId nowMs claimed progress) :
    protocol.Obeys role (fun _ later => RollingBack workerId nowMs [] later)
      (forM claimed Player.releaseClaim) progress := by
  have start : RollingBack workerId nowMs claimed progress := by
    refine ⟨holding.unused, distinct, ?_, ?_⟩
    · intro player member
      rw [holding.phase, if_pos member]
    · intro player outside
      rw [holding.phase, if_neg outside]
      exact .inl rfl
  apply Contract.Obeys.forM start
  intro player rest progress rolling
  apply (Player.obeys_releaseClaim
    (rolling.held player (List.mem_cons_self ..))).mono
  rintro _ later rfl
  obtain ⟨apart, distinct⟩ := List.nodup_cons.mp rolling.distinct
  refine ⟨rolling.unused.setPhase _ _, distinct, ?_, ?_⟩
  · intro other member
    have different : other ≠ player := by
      rintro rfl
      exact apart member
    rw [Progress.setPhase_ne different]
    exact rolling.held other (List.mem_cons_of_mem _ member)
  · intro other outside
    by_cases same : other = player
    · subst same
      exact .inr Progress.setPhase_self
    · rw [Progress.setPhase_ne same]
      exact rolling.others other (by simp [same, outside])

/-- The first claimed players are matched, the rest is still held. -/
structure Settling (workerId nowMs : Nat) (done rest : List Player)
    (progress : Progress) : Prop where
  removal : progress.removal = { pending := done, halfway := none }
  enrolment : progress.enrolment = .none
  published : progress.published = []
  distinct : (done ++ rest).Nodup
  settled : ∀ player ∈ done,
    progress.phase player = .marked ∨ progress.phase player = .missed
  held : ∀ player ∈ rest, progress.phase player = .held workerId nowMs
  idle : ∀ player, player ∉ done ++ rest → progress.phase player = .idle

theorem Settling.mark {workerId nowMs : Nat} {done rest : List Player}
    {player : Player} {progress : Progress} {phase : Phase}
    (settling : Settling workerId nowMs done (player :: rest) progress)
    (final : phase = .marked ∨ phase = .missed) :
    Settling workerId nowMs (done ++ [player]) rest
      ((progress.setPhase player phase).setRemoval
        { progress.removal with
          pending := progress.removal.pending ++ [player] }) := by
  have same : done ++ [player] ++ rest = done ++ player :: rest := by simp
  have later : ∀ other ∈ rest, other ≠ player := by
    intro other member equality
    subst equality
    have distinct := settling.distinct.of_append_right
    exact (List.nodup_cons.mp distinct).1 member
  refine ⟨by simp [Progress.setRemoval, settling.removal],
    settling.enrolment, settling.published, same ▸ settling.distinct,
    ?_, ?_, ?_⟩
  · intro other member
    by_cases equality : other = player
    · subst equality
      simpa [Progress.setRemoval] using final
    · have earlier : other ∈ done := by simpa [equality] using member
      simpa [Progress.setRemoval, Progress.setPhase_ne equality] using
        settling.settled other earlier
  · intro other member
    simpa [Progress.setRemoval, Progress.setPhase_ne (later other member)]
      using settling.held other (List.mem_cons_of_mem _ member)
  · intro other outside
    rw [same] at outside
    have different : other ≠ player := by
      rintro rfl
      simp at outside
    simpa [Progress.setRemoval, Progress.setPhase_ne different] using
      settling.idle other outside

def Marking (workerId nowMs : Nat) (claimed rest : List Player)
    (progress : Progress) : Prop :=
  ∃ done, done ++ rest = claimed ∧ Settling workerId nowMs done rest progress

theorem obeys_marking {role : Role} {progress : Progress}
    {workerId nowMs : Nat} {claimed : List Player} (distinct : claimed.Nodup)
    (holding : Holding workerId nowMs claimed progress) :
    protocol.Obeys role (fun _ later => Marking workerId nowMs claimed [] later)
      (forM claimed Player.markMatched) progress := by
  have start : Marking workerId nowMs claimed claimed progress := by
    refine ⟨[], rfl, holding.unused.removal, holding.unused.enrolment,
      holding.unused.published, distinct, by simp, ?_, ?_⟩
    · intro player member
      rw [holding.phase, if_pos member]
    · intro player outside
      rw [List.nil_append] at outside
      rw [holding.phase, if_neg outside]
  apply Contract.Obeys.forM start
  intro player rest progress found
  obtain ⟨done, rfl, settling⟩ := found
  apply (Player.obeys_markMatched
    (settling.held player (List.mem_cons_self ..))).mono
  intro _ later found
  obtain ⟨phase, final, rfl⟩ := found
  exact ⟨done ++ [player], by simp, settling.mark final⟩

/-- The claimed players are matched, and some are still to be removed. -/
structure Removing (claimed rest : List Player) (progress : Progress) :
    Prop where
  removal : progress.removal = { pending := rest, halfway := none }
  enrolment : progress.enrolment = .none
  published : progress.published = []
  settled : ∀ player ∈ claimed,
    progress.phase player = .marked ∨ progress.phase player = .missed
  idle : ∀ player, player ∉ claimed → progress.phase player = .idle

theorem Removing.extends {claimed rest : List Player}
    {progress later : Progress} (removing : Removing claimed rest progress)
    (extended : progress.Extends later) : Removing claimed rest later where
  removal := extended.removal.trans removing.removal
  enrolment := extended.enrolment.trans removing.enrolment
  published := extended.published.trans removing.published
  settled := by
    rw [extended.phase]
    exact removing.settled
  idle := by
    rw [extended.phase]
    exact removing.idle

theorem PlayerPool.obeys_remove {role : Role} {progress : Progress}
    {player : Player} {rest : List Player}
    (pending : progress.removal =
      { pending := player :: rest, halfway := none }) :
    protocol.Obeys role
      (fun _ later => later.phase = progress.phase ∧
        later.removal = { pending := rest, halfway := none } ∧
        later.enrolment = progress.enrolment ∧
        later.published = progress.published)
      (PlayerPool.remove player.id) progress := by
  refine obeys_access_bind.mpr ⟨⟨?_, player, rest, ?_, rfl⟩, ?_⟩
  · rw [pending]
  · rw [pending]
  · intro found _
    have next : (progress.next (.primaryRemove player.id) found).removal =
        { pending := rest, halfway := found } := by
      simp [Progress.next, Removal.next, pending]
    cases found with
    | none => exact ⟨rfl, next, rfl, rfl⟩
    | some other =>
        refine obeys_access_bind.mpr ⟨congrArg Removal.halfway next, ?_⟩
        intro _ _
        refine ⟨rfl, ?_, rfl, rfl⟩
        simp [Progress.next, Removal.next, pending]

theorem obeys_removing {role : Role} {progress : Progress}
    {claimed : List Player} (removing : Removing claimed claimed progress) :
    protocol.Obeys role (fun _ later => Removing claimed [] later)
      (forM claimed fun player => do
        let _ ← PlayerPool.remove player.id) progress := by
  apply Contract.Obeys.forM removing
  intro player rest progress removing
  apply (PlayerPool.obeys_remove removing.removal).bind
  intro _ later found
  obtain ⟨phase, removal, enrolment, published⟩ := found
  refine ⟨removal, enrolment.trans removing.enrolment,
    published.trans removing.published, ?_, ?_⟩
  · rw [phase]
    exact removing.settled
  · rw [phase]
    exact removing.idle

/-! The four calls. -/

/-- The end of an attempt that published a match. -/
structure Completed (progress : Progress) : Prop where
  removal : progress.removal = .none
  enrolment : progress.enrolment = .none
  published : progress.published.length = matchSize
  settled : ∀ player, player ∈ progress.published ↔
    progress.phase player = .marked ∨ progress.phase player = .missed
  idle : ∀ player, player ∉ progress.published →
    progress.phase player = .idle

/-- The end of an attempt that published nothing. -/
structure Abandoned (progress : Progress) : Prop where
  unused : progress.Unused
  phase : ∀ player,
    progress.phase player = .idle ∨ progress.phase player = .released

theorem Completed.extends {progress later : Progress}
    (completed : Completed progress) (extended : progress.Extends later) :
    Completed later where
  removal := extended.removal.trans completed.removal
  enrolment := extended.enrolment.trans completed.enrolment
  published := by
    rw [extended.published]
    exact completed.published
  settled := by
    rw [extended.published, extended.phase]
    exact completed.settled
  idle := by
    rw [extended.published, extended.phase]
    exact completed.idle

theorem Abandoned.extends {progress later : Progress}
    (abandoned : Abandoned progress) (extended : progress.Extends later) :
    Abandoned later where
  unused := abandoned.unused.extends extended
  phase := by
    rw [extended.phase]
    exact abandoned.phase

def AttemptEnded : MatchAttemptResult → Progress → Prop
  | .success _, progress => Completed progress
  | _, progress => Abandoned progress

theorem obeys_completeMatch {progress : Progress} {nowMs : Nat}
    (ctx : WorkerContext) (state : WorkerState) {claimed : List Player}
    (distinct : claimed.Nodup) (ten : claimed.length = matchSize)
    (bounded : ∀ player ∈ claimed, player.skillRating ≤ maxSkillRating)
    (holding : Holding ctx.workerId nowMs claimed progress) :
    protocol.Obeys (.attemptMatch ctx.workerId)
      (fun outcome later => AttemptEnded outcome.1 later)
      (completeMatch ctx state claimed) progress := by
  obtain ⟨sizeA, sizeB, perm⟩ := exhaustiveBalance_split ten bounded
  apply (obeys_marking distinct holding).bind
  intro _ marked found
  obtain ⟨done, whole, settling⟩ := found
  obtain rfl : done = claimed := by simpa using whole
  have removing : Removing done done marked :=
    ⟨settling.removal, settling.enrolment, settling.published,
      settling.settled, by simpa using settling.idle⟩
  apply (reads_buildMatch done (exhaustiveBalance done)).obeys.bind
  rintro ⟨completedMatch, waitTimesMs, skillSpread⟩ built
    ⟨describes, extended⟩
  have removing := removing.extends extended
  apply (obeys_removing removing).bind
  intro _ progress removing
  have settled : ∀ player,
      player ∈ (exhaustiveBalance done).teamA ++
        (exhaustiveBalance done).teamB ↔
      progress.phase player = .marked ∨ progress.phase player = .missed := by
    intro player
    rw [perm.mem_iff]
    constructor
    · exact removing.settled player
    · intro final
      by_contra outside
      rw [removing.idle player outside] at final
      rcases final with final | final <;> cases final
  refine obeys_access_bind.mpr ⟨⟨⟨_, rfl⟩, removing.published,
    removing.removal, sizeA, sizeB, perm.nodup_iff.mpr distinct, settled,
    describes.recordA, describes.recordB⟩, ?_⟩
  intro pushed _
  have completed : Completed (progress.next
      (.pushHistory (exhaustiveBalance done).teamA
        (exhaustiveBalance done).teamB completedMatch
        ctx.matchHistoryLimit) pushed) :=
    ⟨removing.removal, removing.enrolment, perm.length_eq.trans ten, settled,
      fun player outside => removing.idle player fun member =>
        outside (perm.mem_iff.mpr member)⟩
  apply (looks_updateMetricsOnSuccess _ _ _).obeys.bind
  intro _ later found
  obtain ⟨_, extended⟩ := found
  exact completed.extends extended

theorem obeys_attemptMatch (ctx : WorkerContext) (state : WorkerState) :
    protocol.Obeys (.attemptMatch ctx.workerId)
      (fun outcome later => AttemptEnded outcome.1 later)
      (attemptMatch ctx state) .start := by
  have unused : Progress.start.Unused := ⟨rfl, rfl, rfl⟩
  apply (reads_selectSeed ctx state).obeys.bind
  rintro (_ | seed) chosen ⟨_, selected⟩
  · refine Abandoned.extends ⟨unused, fun player => .inl rfl⟩ selected
  · apply (reads_scanBounds _ _ _).obeys.bind
    rintro ⟨minRating, maxRating⟩ bounded ⟨_, scanned⟩
    apply (reads_relaxationStage _ _).obeys.bind
    intro stage staged given
    obtain ⟨_, relaxed⟩ := given
    apply (looks_fetchAdd _ _).obeys.bind
    intro _ counted given
    obtain ⟨_, cycled⟩ := given
    apply (PlayerPool.obeys_rangeScan _ _).bind
    intro candidates found given
    obtain ⟨⟨distinct, known, ratings⟩, walked⟩ := given
    have extended : Progress.start.Extends found :=
      (selected.trans scanned).trans
        ((relaxed.trans cycled).trans walked)
    dsimp only
    split
    · apply (looks_fetchAdd _ _).obeys.bind
      intro _ later given
      obtain ⟨_, last⟩ := given
      exact Abandoned.extends ⟨unused, fun player => .inl rfl⟩
        (extended.trans last)
    · refine obeys_access_bind.mpr ⟨trivial, ?_⟩
      intro nowMs _
      have read : found.Extends (found.next .unixMs nowMs) :=
        found.extends_next nowMs rfl
      have holding : Holding ctx.workerId nowMs []
          (found.next .unixMs nowMs) := by
        refine ⟨unused.extends (extended.trans read), ?_⟩
        intro player
        rw [(extended.trans read).phase]
        rfl
      apply (obeys_claimCandidates ctx.workerId nowMs rfl
        (List.Subset.trans known read.known) (by simpa using distinct) rfl
        (Nat.zero_le _) holding).bind
      intro claimed later given
      obtain ⟨sublist, bound, holding⟩ := given
      rw [List.nil_append] at sublist
      split
      · apply (obeys_rollback (distinct.sublist sublist) holding).bind
        intro _ released rolled
        apply (looks_fetchAdd _ _).obeys.bind
        intro _ final given
        obtain ⟨_, last⟩ := given
        exact Abandoned.extends ⟨rolled.unused, fun player =>
          rolled.others player (by simp)⟩ last
      · exact obeys_completeMatch ctx state (distinct.sublist sublist)
          (by omega)
          (fun player member => ratings player (sublist.subset member))
          holding

/-- What an enqueue has done when it returns. -/
structure EnqueueEnded (id : Uuid) (skillRating : Nat)
    (outcome : Except EnqueueError Nat) (progress : Progress) : Prop where
  removal : progress.removal = .none
  published : progress.published = []
  phase : ∀ player, progress.phase player = .idle
  outcome : match outcome with
    | .ok _ => ∃ player, progress.enrolment = .indexed player ∧
        player.id = id ∧ player.skillRating = skillRating
    | .error (.alreadyQueued other) => progress.enrolment = .none ∧
        other = id ∧ skillRating ≤ maxSkillRating
    | .error (.invalidSkillRating rating limit) =>
        progress.enrolment = .none ∧ rating = skillRating ∧
          limit = maxSkillRating ∧ limit < rating

theorem MatchmakerCore.obeys_enqueue (id : Uuid) (skillRating : Nat) :
    protocol.Obeys (.enqueue id skillRating) (EnqueueEnded id skillRating)
      (MatchmakerCore.enqueue id skillRating) .start := by
  unfold MatchmakerCore.enqueue
  split
  · rename_i above
    exact ⟨rfl, rfl, fun _ => rfl, rfl, rfl, rfl, above⟩
  · rename_i within
    have allowed : skillRating ≤ maxSkillRating := by omega
    refine obeys_access_bind.mpr ⟨⟨⟨skillRating, rfl⟩, rfl⟩, ?_⟩
    intro present _
    cases present with
    | true => exact ⟨rfl, rfl, fun _ => rfl, rfl, rfl, allowed⟩
    | false =>
        refine obeys_access_bind.mpr ⟨trivial, ?_⟩
        intro joinTimestamp _
        refine obeys_access_bind.mpr ⟨⟨rfl, rfl, allowed⟩, ?_⟩
        intro player found
        obtain ⟨sameId, sameRating⟩ := found
        refine obeys_access_bind.mpr ⟨rfl, ?_⟩
        intro _ _
        refine obeys_access_bind.mpr ⟨rfl, ?_⟩
        intro _ _
        apply (looks_fetchAdd _ _).obeys.bind
        intro _ counted found
        obtain ⟨_, added⟩ := found
        refine obeys_access_bind.mpr ⟨trivial, ?_⟩
        intro _ _
        refine obeys_access_bind.mpr ⟨trivial, ?_⟩
        intro size _
        refine ⟨added.removal, added.published, ?_, player, added.enrolment,
          sameId, sameRating⟩
        intro other
        exact congrFun added.phase other

/-- What a cancel has done when it returns. -/
structure CancelEnded (id : Uuid) (outcome : Except CancelError Unit)
    (progress : Progress) : Prop where
  unused : progress.Unused
  outcome : match outcome with
    | .ok _ => ∃ player, player.id = id ∧ ∀ other,
        progress.phase other = if other = player then .evicted else .idle
    | .error _ => ∀ player, progress.phase player = .idle

theorem MatchmakerCore.obeys_cancel (id : Uuid) :
    protocol.Obeys (.cancel id) (CancelEnded id)
      (MatchmakerCore.cancel id) .start := by
  refine obeys_access_bind.mpr ⟨trivial, ?_⟩
  intro found credible
  cases found with
  | none => exact ⟨⟨rfl, rfl, rfl⟩, fun _ => rfl⟩
  | some player =>
      have same : player.id = id := credible player rfl
      subst same
      refine obeys_access_bind.mpr ⟨⟨rfl, ?_, rfl⟩, ?_⟩
      · simp [Progress.next, Operation.learnt]
      · intro evicted _
        cases evicted with
        | false =>
            refine ⟨⟨rfl, rfl, rfl⟩, ?_⟩
            intro other
            simp [Progress.next, Phase.next, Phase.exchanged, Progress.start]
        | true =>
            apply (PlayerPool.obeys_remove rfl).bind
            intro _ progress given
            obtain ⟨phase, removal, enrolment, published⟩ := given
            refine obeys_access_bind.mpr ⟨trivial, ?_⟩
            intro _ _
            apply (looks_fetchAdd _ _).obeys.bind
            intro _ later given
            obtain ⟨_, counted⟩ := given
            refine ⟨⟨counted.removal.trans removal,
              counted.enrolment.trans enrolment,
              counted.published.trans published⟩, player, rfl, ?_⟩
            intro other
            have final : later.phase other = _ :=
              (congrFun counted.phase other).trans (congrFun phase other)
            rw [final]
            simp [Progress.next, Phase.next, Phase.exchanged, Progress.start,
              eq_comm]

/-- The Reaper has still to look at these players. -/
structure Reaping (nowMs : Nat) (rest : List Player) (progress : Progress) :
    Prop where
  unused : progress.Unused
  now : progress.nowMs = some nowMs
  known : rest ⊆ progress.known
  distinct : rest.Nodup
  idle : ∀ player ∈ rest, progress.phase player = .idle
  seen : ∀ player, progress.phase player = .idle ∨
    (∃ claimTs, progress.phase player = .suspected claimTs) ∨
    progress.phase player = .cleared

theorem obeys_reapPlayer {progress : Progress} {player : Player}
    (nowMs staleClaimTimeoutMs : Nat) (known : player ∈ progress.known)
    (now : progress.nowMs = some nowMs)
    (idle : progress.phase player = .idle) :
    protocol.Obeys (.reaperTick staleClaimTimeoutMs)
      (fun _ later => ∃ phase, (phase = .idle ∨
        (∃ claimTs, phase = .suspected claimTs) ∨ phase = .cleared) ∧
        later = progress.setPhase player phase)
      (reapPlayer nowMs staleClaimTimeoutMs player) progress := by
  refine obeys_access_bind.mpr ⟨trivial, ?_⟩
  intro state _
  rw [Progress.next_loadState]
  split
  · exact ⟨.idle, .inl rfl, (Progress.setPhase_same idle).symm⟩
  · refine obeys_access_bind.mpr
      ⟨⟨⟨staleClaimTimeoutMs, rfl⟩, known, idle⟩, ?_⟩
    intro claimTs _
    rw [Progress.next_loadClaimTimestamp]
    have suspected : ∃ phase, (phase = Phase.idle ∨
        (∃ claimTs, phase = .suspected claimTs) ∨ phase = .cleared) ∧
        progress.setPhase player (.suspected claimTs) =
          progress.setPhase player phase :=
      ⟨_, .inr (.inl ⟨claimTs, rfl⟩), rfl⟩
    dsimp only
    split
    · exact suspected
    · rename_i stamped
      split
      · rename_i stale
        refine obeys_access_bind.mpr ⟨trivial, ?_⟩
        intro _ _
        rw [Progress.next_loadClaimedBy]
        refine obeys_access_bind.mpr ⟨⟨staleClaimTimeoutMs, claimTs, rfl, now,
          Progress.setPhase_self, stamped, stale⟩, ?_⟩
        intro success _
        rw [Progress.next_exchange_keeping rfl]
        cases success with
        | false =>
            refine ⟨.suspected claimTs, .inr (.inl ⟨claimTs, rfl⟩), ?_⟩
            simp [Phase.exchanged]
        | true =>
            refine obeys_access_bind.mpr ⟨.inr ⟨rfl, .inr ?_⟩, ?_⟩
            · simp [Phase.exchanged]
            · intro _ _
              rw [Progress.next_storeClaimedBy]
              refine obeys_access_bind.mpr ⟨.inr ⟨rfl, .inr ?_⟩, ?_⟩
              · simp [Phase.exchanged, Phase.storedClaimedBy]
              · intro _ _
                rw [Progress.next_storeClaimTimestamp]
                refine ⟨.cleared, .inr (.inr rfl), ?_⟩
                simp [Phase.exchanged, Phase.storedClaimedBy,
                  Phase.storedClaimTimestamp]
      · exact suspected

theorem obeys_reapPlayers {progress : Progress}
    (nowMs staleClaimTimeoutMs : Nat) {players : List Player}
    (recovered : Nat) (reaping : Reaping nowMs players progress) :
    protocol.Obeys (.reaperTick staleClaimTimeoutMs)
      (fun _ later => Reaping nowMs [] later)
      (reapPlayers nowMs staleClaimTimeoutMs players recovered) progress := by
  induction players generalizing progress recovered with
  | nil => exact reaping
  | cons player rest induction =>
      apply (obeys_reapPlayer nowMs staleClaimTimeoutMs
        (reaping.known (List.mem_cons_self ..)) reaping.now
        (reaping.idle player (List.mem_cons_self ..))).bind
      intro done later found
      obtain ⟨phase, reached, rfl⟩ := found
      obtain ⟨apart, distinct⟩ := List.nodup_cons.mp reaping.distinct
      have reaping : Reaping nowMs rest (progress.setPhase player phase) := by
        refine ⟨reaping.unused.setPhase _ _, reaping.now,
          fun other member => reaping.known (List.mem_cons_of_mem _ member),
          distinct, ?_, ?_⟩
        · intro other member
          have different : other ≠ player := by
            rintro rfl
            exact apart member
          rw [Progress.setPhase_ne different]
          exact reaping.idle other (List.mem_cons_of_mem _ member)
        · intro other
          by_cases same : other = player
          · subst same
            rw [Progress.setPhase_self]
            exact reached
          · rw [Progress.setPhase_ne same]
            exact reaping.seen other
      split <;> exact induction _ reaping

/-- What a tick of the Reaper has done when it returns. -/
structure ReaperEnded (progress : Progress) : Prop where
  unused : progress.Unused
  seen : ∀ player, progress.phase player = .idle ∨
    (∃ claimTs, progress.phase player = .suspected claimTs) ∨
    progress.phase player = .cleared

theorem obeys_reaperTick (staleClaimTimeoutMs : Nat) :
    protocol.Obeys (.reaperTick staleClaimTimeoutMs)
      (fun _ later => ReaperEnded later)
      (reaperTick staleClaimTimeoutMs) .start := by
  refine obeys_access_bind.mpr ⟨trivial, ?_⟩
  intro nowMs _
  refine obeys_access_bind.mpr ⟨trivial, ?_⟩
  intro players distinct
  have reaping : Reaping nowMs players
      ((Progress.start.next .unixMs nowMs).next .primaryIter players) :=
    ⟨⟨rfl, rfl, rfl⟩, rfl, List.subset_append_right _ _, distinct,
      fun _ _ => rfl, fun _ => .inl rfl⟩
  apply (obeys_reapPlayers nowMs staleClaimTimeoutMs 0 reaping).bind
  intro recovered later reaping
  split
  · apply (looks_fetchAdd _ _).obeys.mono
    intro _ final found
    obtain ⟨_, counted⟩ := found
    refine ⟨reaping.unused.extends counted, ?_⟩
    rw [counted.phase]
    exact reaping.seen
  · exact ⟨reaping.unused, reaping.seen⟩

def Finished : Request → Response → Progress → Prop
  | .enqueue id skillRating, .enqueue outcome, progress =>
      EnqueueEnded id skillRating outcome progress
  | .cancel id, .cancel outcome, progress => CancelEnded id outcome progress
  | .attemptMatch _, .attemptMatch outcome _, progress =>
      AttemptEnded outcome progress
  | .reaperTick, .reaperTick, progress => ReaperEnded progress
  | _, _, _ => False

theorem System.obeys_program {config : Config} {system : System}
    {request : Request} {task : Task Response}
    (launched : system.program config request = some task) :
    protocol.Obeys (request.role config) (Finished request) task .start := by
  cases request with
  | enqueue id skillRating =>
      cases launched
      exact (MatchmakerCore.obeys_enqueue id skillRating).map
        fun _ _ ended => ended
  | cancel id =>
      cases launched
      exact (MatchmakerCore.obeys_cancel id).map fun _ _ ended => ended
  | attemptMatch workerId =>
      obtain ⟨state, _, rfl⟩ := Option.map_eq_some_iff.mp launched
      apply Contract.Obeys.map (obeys_attemptMatch
        ⟨workerId, config, matchHistoryLimit⟩ state)
      intro _ _ ended
      exact ended
  | reaperTick =>
      rw [System.program] at launched
      split at launched
      · cases launched
        exact (obeys_reaperTick _).map fun _ _ ended => ended
      · cases launched

end Matchmaker
