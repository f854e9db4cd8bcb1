import Mathlib.Algebra.Order.BigOperators.Group.List
import Matchmaker.Outcome.Quality
import Matchmaker.Safety.Statistics
import Matchmaker.Service.Endpoints

namespace Matchmaker

open Concurrent

/-! What the read requests answer while the service is at work. -/

section Later

variable {config : Config} {clock : Clock} {discipline : Discipline}
  {system earlier later : System}

theorem Later.run (run : Run config clock discipline earlier)
    (after : Later config discipline earlier later) :
    Run config clock discipline later :=
  Reachable.append run after fun permitted => permitted

theorem Core.total_perform (core : Core) (choice : Choice)
    (operation : Operation) (counter : Counter) :
    core.metrics.total counter ≤
      (core.perform choice operation).2.metrics.total counter := by
  cases operation with
  | exchange player site =>
      simp only [Core.perform, Core.exchange]
      split <;> exact Nat.le_refl _
  | fetchAdd other amount =>
      simp only [Core.perform, Metrics.total_fetchAdd]
      exact Nat.le_add_right ..
  | addQueueSize amount => cases counter <;> exact Nat.le_refl _
  | _ => exact Nat.le_refl _

/-- Counters never fall, and no event is ever forgotten. -/
structure Grows (earlier later : System) : Prop where
  total : ∀ counter, earlier.world.metrics.total counter ≤
    later.world.metrics.total counter
  trace : earlier.trace <:+ later.trace

theorem Grows.refl (system : System) : Grows system system :=
  ⟨fun _ => Nat.le_refl _, List.suffix_refl _⟩

theorem Grows.trans {middle : System} (first : Grows earlier middle)
    (second : Grows middle later) : Grows earlier later :=
  ⟨fun counter => Nat.le_trans (first.total counter) (second.total counter),
    first.trace.trans second.trace⟩

theorem System.grows_step {action : Action}
    (moved : system.step config action = some later) : Grows system later := by
  cases action with
  | start request =>
      obtain ⟨task, _, rfl⟩ := Option.map_eq_some_iff.mp moved
      exact ⟨fun _ => Nat.le_refl _, List.suffix_refl _⟩
  | tick instant unixMs =>
      cases moved
      exact ⟨fun _ => Nat.le_refl _, List.suffix_refl _⟩
  | step caller choice =>
      obtain ⟨request, operation, next, _, rfl⟩ := Pool.advance_cases moved
      exact ⟨system.world.total_perform choice operation,
        List.suffix_cons _ _⟩

theorem Later.grows (after : Later config discipline earlier later) :
    Grows earlier later := by
  induction after with
  | start => exact .refl _
  | step _ _ moved induction => exact induction.trans (System.grows_step moved)

theorem Grows.records (grows : Grows earlier later) :
    publishedRecords earlier.trace <:+ publishedRecords later.trace :=
  (grows.trace.filterMap _).map _

theorem Grows.sum_records (grows : Grows earlier later) (f : Match → Nat) :
    ((publishedRecords earlier.trace).map f).sum ≤
      ((publishedRecords later.trace).map f).sum :=
  (grows.records.sublist.map f).sum_le_sum fun _ _ => Nat.zero_le _

theorem Grows.resets (grows : Grows earlier later) :
    (Matchmaker.resets earlier.trace).length ≤
      (Matchmaker.resets later.trace).length :=
  ((grows.trace.filterMap _).sublist.filter _).length_le

end Later

/-- The counters that `GET /metrics` shows as they are. -/
def MetricsSnapshot.shown (snapshot : MetricsSnapshot) :
    List (Counter × Nat) :=
  [(.totalPlayersEnqueued, snapshot.totalPlayersEnqueued),
    (.totalPlayersCancelled, snapshot.totalPlayersCancelled),
    (.totalMatchesCreated, snapshot.totalMatchesCreated),
    (.totalPlayersMatched, snapshot.totalPlayersMatched),
    (.matchAttemptsInsufficient, snapshot.matchAttemptsInsufficient),
    (.matchAttemptsClaimFailed, snapshot.matchAttemptsClaimFailed),
    (.workerCyclesTotal, snapshot.workerCyclesTotal),
    (.totalStaleClaimsRecovered, snapshot.totalStaleClaimsRecovered),
    (.totalWaitTimeMs, snapshot.totalWaitTimeMs)]

/-- What a snapshot can be relied on to say, although its values were read one
by one between two states. -/
structure Coherent (config : Config) (discipline : Discipline)
    (opened closed : System) (snapshot : MetricsSnapshot) : Prop where
  between : ∀ entry ∈ snapshot.shown,
    opened.world.metrics.load entry.1 ≤ entry.2 ∧
      entry.2 ≤ closed.world.metrics.load entry.1
  queue : ∃ seen, Later config discipline opened seen ∧
    Later config discipline seen closed ∧
    snapshot.currentQueueSize = seen.world.metrics.currentQueueSize
  matched : snapshot.totalPlayersMatched ≤
    matchSize * snapshot.totalMatchesCreated
  cycles : snapshot.totalMatchesCreated + snapshot.matchAttemptsInsufficient +
    snapshot.matchAttemptsClaimFailed ≤ snapshot.workerCyclesTotal
  recovered : snapshot.totalStaleClaimsRecovered ≤ (resets closed.trace).length
  published : snapshot.totalMatchesCreated ≤
    (publishedRecords closed.trace).length
  waits : snapshot.avgWaitMs * snapshot.totalPlayersMatched ≤
    snapshot.totalWaitTimeMs
  spreads : snapshot.avgSkillSpread *
      opened.world.metrics.load .skillSpreadCount ≤
    ((publishedRecords closed.trace).map (·.skillSpread)).sum
  deltas : snapshot.avgTeamDelta *
      opened.world.metrics.load .teamDeltaCount ≤
    ((publishedRecords closed.trace).map (·.teamDelta)).sum
  still : (∀ counter, opened.world.metrics.load counter =
      closed.world.metrics.load counter) →
    snapshot = { closed.world.metrics.snapshot with
      currentQueueSize := snapshot.currentQueueSize }

theorem checkedDiv_mul_le (dividend divisor : Nat) {smaller : Nat}
    (lower : smaller ≤ divisor) :
    (checkedDiv dividend divisor).getD 0 * smaller ≤ dividend := by
  rw [checkedDiv_eq]
  exact Nat.le_trans (Nat.mul_le_mul_left _ lower)
    (Nat.div_mul_le_self dividend divisor)

/-- How far the counters of a state can be ahead of one another. -/
structure Behind (system : System) : Prop where
  matched : system.world.metrics.total .totalPlayersMatched ≤
    matchSize * system.world.metrics.total .totalMatchesCreated
  cycles : system.world.metrics.total .totalMatchesCreated +
      system.world.metrics.total .matchAttemptsInsufficient +
      system.world.metrics.total .matchAttemptsClaimFailed ≤
    system.world.metrics.total .workerCyclesTotal
  recovered : system.world.metrics.total .totalStaleClaimsRecovered ≤
    (resets system.trace).length
  created : system.world.metrics.total .totalMatchesCreated ≤
    (publishedRecords system.trace).length
  spreadSum : system.world.metrics.total .skillSpreadSum ≤
    ((publishedRecords system.trace).map (·.skillSpread)).sum
  deltaSum : system.world.metrics.total .teamDeltaSum ≤
    ((publishedRecords system.trace).map (·.teamDelta)).sum

section Reads

variable {config : Config} {clock : Clock} {discipline : Discipline}
  {opened : System}

theorem Run.behind (run : Run config clock discipline opened) :
    Behind opened := by
  obtain ⟨matched, _, _, pushed, cycles, _, recovered, spreadSum, deltaSum,
    _⟩ := Run.paced run
  simp only [Core.accrual] at *
  constructor <;> omega

theorem gathers_metricsSnapshot (run : Run config clock discipline opened) :
    Gathers sights (Later config discipline)
      (fun snapshot closed =>
        closed.world.metrics.totalWaitTimeMs < 2 ^ 64 →
          Coherent config discipline opened closed snapshot)
      MatchmakerCore.metricsSnapshot opened := by
  have before : ∀ earlier ∈ ([] : List System),
      Later config discipline earlier opened := by simp
  refine gathers_look Leads.trans before fun atMatched before1 => ?_
  refine gathers_look Leads.trans before1 fun atSpreads before2 => ?_
  refine gathers_look Leads.trans before2 fun atDeltas before3 => ?_
  refine gathers_look Leads.trans before3 fun atWait before4 => ?_
  refine gathers_look Leads.trans before4 fun atSpreadSum before5 => ?_
  refine gathers_look Leads.trans before5 fun atDeltaSum before6 => ?_
  refine gathers_look Leads.trans before6 fun atEnqueued before7 => ?_
  refine gathers_look Leads.trans before7 fun atCancelled before8 => ?_
  refine gathers_look Leads.trans before8 fun atCreated before9 => ?_
  refine gathers_look Leads.trans before9 fun atInsufficient before10 => ?_
  refine gathers_look Leads.trans before10 fun atFailed before11 => ?_
  refine gathers_look Leads.trans before11 fun atCycles before12 => ?_
  refine gathers_look Leads.trans before12 fun atRecovered before13 => ?_
  refine gathers_look Leads.trans before13 fun atQueue before14 => ?_
  refine gathers_look Leads.trans before14 fun closed before15 small => ?_
  have rises : ∀ {seen seen' : System}, Later config discipline seen seen' →
      Later config discipline seen' closed → ∀ counter,
        seen.world.metrics.load counter ≤ seen'.world.metrics.load counter := by
    intro seen seen' between onwards counter
    have below := onwards.grows.total .totalWaitTimeMs
    rw [Metrics.load_eq (Nat.lt_of_le_of_lt below small)]
    exact Nat.le_trans (Metrics.load_le _ counter)
      (between.grows.total counter)
  have bounds : ∀ {seen : System}, Later config discipline opened seen →
      Later config discipline seen closed → ∀ counter,
        opened.world.metrics.load counter ≤ seen.world.metrics.load counter ∧
          seen.world.metrics.load counter ≤
            closed.world.metrics.load counter :=
    fun since onwards counter =>
      ⟨rises since onwards counter, rises onwards .start counter⟩
  constructor
  case between =>
    simp only [MetricsSnapshot.shown, List.forall_mem_cons]
    refine ⟨bounds (before7 opened (by simp)) (before15 _ (by simp)) _,
      bounds (before8 opened (by simp)) (before15 _ (by simp)) _,
      bounds (before9 opened (by simp)) (before15 _ (by simp)) _,
      bounds (before1 opened (by simp)) (before15 _ (by simp)) _,
      bounds (before10 opened (by simp)) (before15 _ (by simp)) _,
      bounds (before11 opened (by simp)) (before15 _ (by simp)) _,
      bounds (before12 opened (by simp)) (before15 _ (by simp)) _,
      bounds (before13 opened (by simp)) (before15 _ (by simp)) _,
      bounds (before15 opened (by simp)) .start _, by simp⟩
  case queue =>
    exact ⟨atQueue, before14 opened (by simp), before15 atQueue (by simp), rfl⟩
  case matched =>
    have entered := (Run.behind (Later.run run (before1 opened
      (by simp)))).matched
    have grown := (before9 atMatched (by simp)).grows.total .totalMatchesCreated
    exact Nat.le_trans entered (Nat.mul_le_mul_left _ grown)
  case cycles =>
    have entered := (Run.behind (Later.run run (before12 opened
      (by simp)))).cycles
    have created := (before12 atCreated (by simp)).grows.total
      .totalMatchesCreated
    have insufficient := (before12 atInsufficient (by simp)).grows.total
      .matchAttemptsInsufficient
    have failed := (before12 atFailed (by simp)).grows.total
      .matchAttemptsClaimFailed
    show atCreated.world.metrics.total .totalMatchesCreated +
        atInsufficient.world.metrics.total .matchAttemptsInsufficient +
        atFailed.world.metrics.total .matchAttemptsClaimFailed ≤
      atCycles.world.metrics.total .workerCyclesTotal
    omega
  case recovered =>
    have entered := (Run.behind (Later.run run (before13 opened
      (by simp)))).recovered
    have grown := (before15 atRecovered (by simp)).grows.resets
    exact Nat.le_trans entered grown
  case published =>
    have entered := (Run.behind (Later.run run (before9 opened
      (by simp)))).created
    have grown := (before15 atCreated (by simp)).grows.records
    exact Nat.le_trans entered grown.length_le
  case waits =>
    have grown := rises (before15 atWait (by simp)) .start .totalWaitTimeMs
    exact Nat.le_trans (checkedDiv_mul_le _ _ (Nat.le_refl _)) grown
  case spreads =>
    have entered := (Run.behind (Later.run run (before5 opened
      (by simp)))).spreadSum
    have fewer := (before2 opened (by simp)).grows.total .skillSpreadCount
    have grown := (before15 atSpreadSum (by simp)).grows.sum_records
    exact Nat.le_trans (Nat.le_trans (checkedDiv_mul_le _ _ fewer) entered)
      (grown _)
  case deltas =>
    have entered := (Run.behind (Later.run run (before6 opened
      (by simp)))).deltaSum
    have fewer := (before3 opened (by simp)).grows.total .teamDeltaCount
    have grown := (before15 atDeltaSum (by simp)).grows.sum_records
    exact Nat.le_trans (Nat.le_trans (checkedDiv_mul_le _ _ fewer) entered)
      (grown _)
  case still =>
    intro unmoved
    have same : ∀ {seen : System}, Later config discipline opened seen →
        Later config discipline seen closed → ∀ counter,
          seen.world.metrics.load counter =
            closed.world.metrics.load counter := by
      intro seen since onwards counter
      have squeezed := bounds since onwards counter
      have equal := unmoved counter
      omega
    have matched := same (before1 opened (by simp)) (before15 _ (by simp))
      .totalPlayersMatched
    have spreads := same (before2 opened (by simp)) (before15 _ (by simp))
      .skillSpreadCount
    have deltas := same (before3 opened (by simp)) (before15 _ (by simp))
      .teamDeltaCount
    have wait := same (before4 opened (by simp)) (before15 _ (by simp))
      .totalWaitTimeMs
    have spreadSum := same (before5 opened (by simp)) (before15 _ (by simp))
      .skillSpreadSum
    have deltaSum := same (before6 opened (by simp)) (before15 _ (by simp))
      .teamDeltaSum
    have enqueued := same (before7 opened (by simp)) (before15 _ (by simp))
      .totalPlayersEnqueued
    have cancelled := same (before8 opened (by simp)) (before15 _ (by simp))
      .totalPlayersCancelled
    have created := same (before9 opened (by simp)) (before15 _ (by simp))
      .totalMatchesCreated
    have insufficient := same (before10 opened (by simp))
      (before15 _ (by simp)) .matchAttemptsInsufficient
    have failed := same (before11 opened (by simp)) (before15 _ (by simp))
      .matchAttemptsClaimFailed
    have cycles := same (before12 opened (by simp)) (before15 _ (by simp))
      .workerCyclesTotal
    have recovered := same (before13 opened (by simp)) (before15 _ (by simp))
      .totalStaleClaimsRecovered
    simp only [Core.look, matched, spreads, deltas, wait, spreadSum, deltaSum,
      enqueued, cancelled, created, insufficient, failed, cycles, recovered]
    rfl

/-- What `GET /matches` answers from looks made between two states. -/
def Recent (config : Config) (discipline : Discipline) (limit : Option Nat)
    (opened closed : System) (response : MatchesResponse) : Prop :=
  ∃ seen, Later config discipline opened seen ∧
    Later config discipline seen closed ∧
    response.matchList = (publishedRecords seen.trace).take
      (min (max (limit.getD defaultLimit) 1) matchHistoryLimit) ∧
    (publishedRecords seen.trace).length ≤
      response.totalMatchesFormed + seen.inProgress.1 ∧
    response.totalMatchesFormed =
      closed.world.metrics.load .totalMatchesCreated

theorem gathers_matchesHandler (run : Run config clock discipline opened)
    (limit : Option Nat) :
    Gathers sights (Later config discipline)
      (fun response closed =>
        Recent config discipline limit opened closed response)
      (matchesHandler limit) opened := by
  intro seen before closed after
  have later := Later.run run before
  refine ⟨seen, before, after, Run.recent later _, ?_, rfl⟩
  have entered := (Run.paced later).pushed.2
  have grown := after.grows.total .totalMatchesCreated
  simp only [Core.accrual] at entered
  show ((publishedRecords seen.trace).length : Int) ≤
    (closed.world.metrics.total .totalMatchesCreated : Nat) + _
  omega

/-- What a read request answers. -/
def Reported (config : Config) (clock : Clock) (discipline : Discipline) :
    ReadRequest → System → ReadResponse → System → Prop
  | .health, opened, .health response, closed =>
      response.status = "ok" ∧
      (∃ seen, Later config discipline opened seen ∧
        Later config discipline seen closed ∧
        response.playersWaiting = seen.world.metrics.currentQueueSize) ∧
      response.uptimeSecs =
        (closed.world.clock.instant - clock.instant) / 1000000000
  | .metrics, opened, .metrics snapshot, closed =>
      closed.world.metrics.totalWaitTimeMs < 2 ^ 64 →
        Coherent config discipline opened closed snapshot
  | .recent limit, opened, .recent response, closed =>
      Recent config discipline limit opened closed response
  | _, _, _, _ => False

theorem gathers_readProgram (run : Run config clock discipline opened)
    (request : ReadRequest) :
    Gathers sights (Later config discipline)
      (Reported config clock discipline request opened)
      (readProgram clock.instant request) opened := by
  cases request with
  | health =>
      intro seen before closed after
      exact ⟨rfl, ⟨seen, before, after, rfl⟩, rfl⟩
  | metrics =>
      exact (gathers_metricsSnapshot run).map fun _ _ coherent => coherent
  | recent limit =>
      exact (gathers_matchesHandler run limit).map fun _ _ recent => recent

end Reads

section Answers

variable {config : Config} {clock : Clock} {discipline : Discipline}
  {first second : ReadSystem}

/-- An answer is right about states between its request and now. -/
theorem ReadLater.reported (run : Run config clock discipline first.state)
    (onwards : ReadLater config clock discipline first second)
    {watch : Nat} {request : ReadRequest} {opened : System}
    {response : ReadResponse} (begun : first.watches.length ≤ watch)
    (answered : second.watches[watch]? =
      some ⟨request, opened, .pure response⟩) :
    Later config discipline first.state opened ∧
      ∃ closed, Later config discipline opened closed ∧
        Later config discipline closed second.state ∧
        Reported config clock discipline request opened response closed :=
  Watched.returned onwards
    (fun request _ before => gathers_readProgram (Later.run run before) request)
    begun answered

end Answers

def looks (watch count : Nat) : List (Observing Action ReadRequest) :=
  List.replicate count (.look watch)

/-- What `GET /matches` answers are the latest matches of one moment, and each
of them is as fair as `Fair` says. -/
theorem matches_recent {config : Config} {clock : Clock}
    {watched : ReadSystem} (accepted : config.validate = .ok ())
    (run : ReadRun config clock .free watched)
    {limit : Option Nat} {watch : Nat} {opened : System}
    {response : MatchesResponse}
    (answered : watched.watches[watch]? =
      some ⟨.recent limit, opened, .pure (.recent response)⟩) :
    Run config clock .free opened ∧
      ∃ closed, Later config .free opened closed ∧
        Later config .free closed watched.state ∧
        Recent config .free limit opened closed response ∧
        ∀ record ∈ response.matchList,
          ∃ publication ∈ publications closed.trace,
            publication.record = record ∧ Fair config publication := by
  obtain ⟨reached, closed, before, after, recent⟩ :=
    ReadLater.reported .start run (Nat.zero_le _) answered
  refine ⟨reached, closed, before, after, recent, ?_⟩
  obtain ⟨seen, _, onwards, shown, _⟩ := recent
  intro record member
  rw [shown] at member
  obtain ⟨publication, among, rfl⟩ :=
    List.mem_map.mp (List.mem_of_mem_take member)
  have kept : publication ∈ publications closed.trace :=
    (onwards.grows.trace.filterMap _).subset among
  obtain ⟨claimed, composed⟩ := Run.composed (Later.run reached before) kept
  exact ⟨publication, kept, rfl,
    composed.fair (Config.validate_staged accepted)⟩

/-- The matches that a request without a limit was answered with. -/
def ReadSystem.listed? (watched : ReadSystem) (watch : Nat) :
    Option MatchesResponse :=
  match watched.answer? watch with
  | some (.recent none, .recent response) => some response
  | _ => none

theorem ReadSystem.exists_of_listed {watched : ReadSystem} {watch : Nat}
    {response : MatchesResponse}
    (listed : watched.listed? watch = some response) :
    ∃ opened, watched.watches[watch]? =
      some ⟨.recent none, opened, .pure (.recent response)⟩ := by
  unfold listed? at listed
  split at listed
  · rename_i answered
    cases listed
    exact exists_of_answer answered
  · cases listed

set_option maxRecDepth 100000 in
/-- A match is shown before it is counted. -/
theorem matches_recent_uncounted :
    ∃ watched opened closed response,
      ReadRun .default ⟨0, 1000⟩ .free watched ∧
      Recent .default .free none opened closed response ∧
      (∀ record ∈ response.matchList,
        ∃ publication ∈ publications closed.trace,
          publication.record = record ∧ Fair .default publication) ∧
      response.matchList.length = 1 ∧ response.totalMatchesFormed = 0 := by
  obtain ⟨watched, ran, check⟩ : ∃ watched,
      ReadSystem.play .default ⟨0, 1000⟩ .free
        ⟨System.new ⟨0, 1000⟩, []⟩ ((arrivals 10 1500 ++
          .start (.attemptMatch 1) :: turns 10 139).map .move ++
          .visit (.recent none) :: looks 0 2) = some watched ∧
        ((watched.listed? 0).any fun response =>
          response.matchList.length = 1 ∧
            response.totalMatchesFormed = 0) = true := by
    apply (Option.any_eq_true _ _).mp
    decide +kernel
  obtain ⟨response, listed, lengths⟩ := (Option.any_eq_true _ _).mp check
  obtain ⟨opened, found⟩ := ReadSystem.exists_of_listed listed
  have run := ReadLater.played ran
  obtain ⟨_, closed, _, _, recent, fair⟩ := matches_recent rfl run found
  exact ⟨watched, opened, closed, response, run, recent, fair,
    of_decide_eq_true lengths⟩

theorem take_append_take (newer older : List α) (most : Nat) :
    (newer ++ older.take most).take most = (newer ++ older).take most := by
  rw [List.take_append, List.take_append, List.take_take,
    Nat.min_eq_left (Nat.sub_le ..)]

/-- The later of two answers of `GET /matches` with one limit: `newer` are the
matches published between the looks at the history, and they are put in front
of the earlier answer. -/
structure Continues (limit : Option Nat) (seen seen' : System)
    (newer : List Match) (response response' : MatchesResponse) : Prop where
  published : publishedRecords seen'.trace =
    newer ++ publishedRecords seen.trace
  earlier : response.matchList = (publishedRecords seen.trace).take
    (min (max (limit.getD defaultLimit) 1) matchHistoryLimit)
  later : response'.matchList = (newer ++ response.matchList).take
    (min (max (limit.getD defaultLimit) 1) matchHistoryLimit)
  totals : response.totalMatchesFormed ≤ response'.totalMatchesFormed

/-- Of two requests to `GET /matches` with one limit, the second one issued
after the first was answered: the later answer is the earlier one with the
matches of the meantime in front, cut to the limit. -/
theorem matches_monotone {config : Config} {clock : Clock}
    {first second : ReadSystem} (run : ReadRun config clock .free first)
    (onwards : ReadLater config clock .free first second)
    {limit : Option Nat} {watch watch' : Nat} {opened opened' : System}
    {response response' : MatchesResponse}
    (answered : first.watches[watch]? =
      some ⟨.recent limit, opened, .pure (.recent response)⟩)
    (begun : first.watches.length ≤ watch')
    (answered' : second.watches[watch']? =
      some ⟨.recent limit, opened', .pure (.recent response')⟩) :
    ∃ seen seen' newer,
      Later config .free opened seen ∧ Later config .free seen first.state ∧
      Later config .free first.state opened' ∧
      Later config .free opened' seen' ∧
      Later config .free seen' second.state ∧
      Continues limit seen seen' newer response response' := by
  have reached := Watched.leads run
  obtain ⟨_, closed, _, after, seen, before, onwards', shown, _, total⟩ :=
    ReadLater.reported .start run (Nat.zero_le _) answered
  obtain ⟨since, closed', _, after', seen', before', onwards'', shown', _,
    total'⟩ := ReadLater.reported reached onwards begun answered'
  have later : Later config .free seen seen' :=
    onwards'.trans (after.trans (since.trans before'))
  obtain ⟨newer, grown⟩ := later.grows.records
  refine ⟨seen, seen', newer, before, onwards'.trans after, since, before',
    onwards''.trans after', grown.symm, shown, ?_, ?_⟩
  · rw [shown, shown', take_append_take, grown]
  · have later : Later config .free closed closed' :=
      after.trans (since.trans (before'.trans onwards''))
    rw [total, total']
    exact later.grows.total .totalMatchesCreated

set_option maxRecDepth 100000 in
/-- One request between two matches, and one after them. -/
theorem matches_monotone_two :
    ∃ (first second : ReadSystem) (opened opened' seen seen' : System)
        (newer : List Match) (response response' : MatchesResponse),
      ReadRun .default ⟨0, 1000⟩ .free first ∧
      ReadLater .default ⟨0, 1000⟩ .free first second ∧
      (Later .default .free opened seen ∧
        Later .default .free seen first.state ∧
        Later .default .free first.state opened' ∧
        Later .default .free opened' seen' ∧
        Later .default .free seen' second.state ∧
        Continues none seen seen' newer response response') ∧
      response.matchList.length = 1 ∧ response'.matchList.length = 2 := by
  obtain ⟨first, ran, check⟩ : ∃ first,
      ReadSystem.play .default ⟨0, 1000⟩ .free
        ⟨System.new ⟨0, 1000⟩, []⟩ ((arrivals 20 1500 ++
          .start (.attemptMatch 1) :: turns 20 177).map .move ++
          .visit (.recent none) :: looks 0 2) = some first ∧
        ((ReadSystem.play .default ⟨0, 1000⟩ .free first
          ((.start (.attemptMatch 1) :: turns 21 147).map .move ++
            .visit (.recent none) :: looks 1 2)).any fun second =>
          first.watches.length = 1 ∧
            (first.listed? 0).any (·.matchList.length = 1) ∧
            (second.listed? 1).any (·.matchList.length = 2)) = true := by
    apply (Option.any_eq_true _ _).mp
    decide +kernel
  obtain ⟨second, ran', check'⟩ := (Option.any_eq_true _ _).mp check
  obtain ⟨single, checked, checked'⟩ := of_decide_eq_true check'
  obtain ⟨response, listed, one⟩ := (Option.any_eq_true _ _).mp checked
  obtain ⟨response', listed', two⟩ := (Option.any_eq_true _ _).mp checked'
  obtain ⟨opened, found⟩ := ReadSystem.exists_of_listed listed
  obtain ⟨opened', found'⟩ := ReadSystem.exists_of_listed listed'
  have run := ReadLater.played ran
  have onwards := ReadLater.played ran'
  obtain ⟨seen, seen', newer, monotone⟩ :=
    matches_monotone run onwards found (Nat.le_of_eq single) found'
  exact ⟨first, second, opened, opened', seen, seen', newer, response,
    response', run, onwards, monotone, of_decide_eq_true one,
    of_decide_eq_true two⟩

end Matchmaker
