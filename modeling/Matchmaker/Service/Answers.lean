import Matchmaker.Concurrent.Moments
import Matchmaker.Safety.DoubleBooking
import Matchmaker.Safety.Registration
import Matchmaker.Service.Handlers
import Matchmaker.Service.Readings

namespace Matchmaker

open Concurrent

/-! What a client may conclude from an answer. -/

/-- What is true of an answer that was given between two states. -/
inductive Told (config : Config) (discipline : Discipline)
    (started now : System) (caller : Nat) : HttpRequest → HttpResponse → Prop
  | invalid (body : EnqueueRequest)
      (above : maxSkillRating < body.skillRating) :
      Told config discipline started now caller (.postEnqueue body)
        ⟨422, .error ⟨"skill_rating must be between 0 and 3000",
          "VALIDATION_ERROR"⟩⟩
  | queued (body : EnqueueRequest) {absent created inserted counted : System}
      {player : Player} (within : body.skillRating ≤ maxSkillRating)
      (first : Later config discipline started absent)
      (none : absent.world.primary.lookup body.id = none)
      (second : Later config discipline absent created)
      (id : player.id = body.id)
      (skillRating : player.skillRating = body.skillRating)
      (third : Later config discipline created inserted)
      (insertion : inserted.trace =
        ⟨caller, .primaryInsert player, ()⟩ :: created.trace)
      (fourth : Later config discipline inserted counted)
      (fifth : Later config discipline counted now) :
      Told config discipline started now caller (.postEnqueue body)
        ⟨200, .enqueued ⟨body.id, "queued",
          counted.world.primary.entries.length⟩⟩
  | already (body : EnqueueRequest) {present : System}
      (within : body.skillRating ≤ maxSkillRating)
      (first : Later config discipline started present)
      (found : (present.world.primary.lookup body.id).isSome = true)
      (second : Later config discipline present now) :
      Told config discipline started now caller (.postEnqueue body)
        ⟨409, .error ⟨"Player " ++ body.id.hyphenated ++ " is already queued",
          "CONFLICT"⟩⟩
  | cancelled (id : Uuid) {present waiting evicted : System} {player : Player}
      (first : Later config discipline started present)
      (found : present.world.primary.lookup id = some player)
      (second : Later config discipline present waiting)
      (unclaimed : (waiting.world.cells player).state = .waiting)
      (third : Later config discipline waiting evicted)
      (eviction : evicted.trace =
        ⟨caller, .exchange player .tryEvict, true⟩ :: waiting.trace)
      (fourth : Later config discipline evicted now) :
      Told config discipline started now caller (.deleteEnqueue id)
        ⟨200, .cancelled ⟨id, "cancelled"⟩⟩
  | unknown (id : Uuid) {absent : System}
      (first : Later config discipline started absent)
      (none : absent.world.primary.lookup id = none)
      (second : Later config discipline absent now) :
      Told config discipline started now caller (.deleteEnqueue id)
        ⟨404, .error ⟨"Player " ++ id.hyphenated ++ " not found",
          "NOT_FOUND"⟩⟩
  | busy (id : Uuid) {present taken : System} {player : Player}
      (first : Later config discipline started present)
      (found : present.world.primary.lookup id = some player)
      (second : Later config discipline present taken)
      (claimed : (taken.world.cells player).state ≠ .waiting)
      (third : Later config discipline taken now) :
      Told config discipline started now caller (.deleteEnqueue id)
        ⟨409, .error ⟨"Player " ++ id.hyphenated ++
          " is currently being matched — retry shortly", "CONFLICT"⟩⟩

section Attests

variable {config : Config} {discipline : Discipline} {started : System}
  {caller : Nat}

theorem Later.trans {first second third : System}
    (before : Later config discipline first second)
    (after : Later config discipline second third) :
    Later config discipline first third :=
  Leads.trans before after

/-- What was done before is still on record. -/
theorem Later.mem_trace {first second : System} {event : Event memory}
    (after : Later config discipline first second)
    (member : event ∈ first.trace) : event ∈ second.trace :=
  after.grows.trace.subset member

theorem attests_task (program : Task α) (system : System) :
    Attests (Later config discipline) caller
      (fun _ now => Later config discipline system now) program system :=
  attests_later (fun _ => .start) fun before after => before.trans after

theorem attests_new (id : Uuid) (skillRating : Nat) (system : System) :
    Attests (Later config discipline) caller (fun player now =>
        Later config discipline system now ∧ player.id = id ∧
          player.skillRating = skillRating)
      (Player.new id skillRating) system := by
  apply (attests_task _ _).bind
  intro joinTimestamp timed first before after choice second third _ _
  exact ⟨(first.trans second).trans third, rfl, rfl⟩

theorem attests_insert (player : Player) (system : System) :
    Attests (Later config discipline) caller (fun _ now =>
        ∃ created inserted, Later config discipline system created ∧
          Later config discipline created inserted ∧ inserted.trace =
            ⟨caller, .primaryInsert player, ()⟩ :: created.trace ∧
          Later config discipline inserted now)
      (PlayerPool.insert player) system := by
  intro created inserted choice first second _ insertion indexing indexed
    choice' third fourth _ _
  exact ⟨created, inserted, first, second, insertion, third.trans fourth⟩

theorem attests_enqueue (body : EnqueueRequest) :
    Attests (Later config discipline) caller (fun outcome now =>
        Told config discipline started now caller (.postEnqueue body)
          (HttpRequest.reply (.postEnqueue body) outcome))
      (MatchmakerCore.enqueue body.id body.skillRating) started := by
  unfold MatchmakerCore.enqueue
  split
  · rename_i above
    show Told _ _ _ _ _ _ (ite _ _ _)
    rw [if_pos above]
    exact .invalid body above
  · rename_i within
    have replied : HttpRequest.reply (.postEnqueue body) = fun outcome =>
        intoResponse .enqueued (enqueueReply body outcome) :=
      funext fun _ => if_neg within
    rw [replied]
    intro met asked choice first second _ _
    show Attests _ _ _ (ite _ _ _) _
    split
    · rename_i found
      exact .already body (by omega) first found second
    · rename_i missing
      have none : met.world.primary.lookup body.id = none :=
        Option.not_isSome_iff_eq_none.mp missing
      apply (attests_new body.id body.skillRating asked).bind
      intro player created third
      obtain ⟨third, id, skillRating⟩ := third
      apply (attests_insert player created).bind
      intro _ stored between
      obtain ⟨ready, inserted, fourth, fifth, insertion, sixth⟩ := between
      apply (attests_task _ _).bind
      intro _ entered seventh
      apply (attests_task _ _).bind
      intro _ gauged eighth counted now choice ninth last _ _
      exact .queued body (by omega) first none
        ((second.trans third).trans fourth) id skillRating fifth insertion
        (((sixth.trans seventh).trans eighth).trans ninth) last

theorem attests_cancel (id : Uuid) :
    Attests (Later config discipline) caller (fun outcome now =>
        Told config discipline started now caller (.deleteEnqueue id)
          (HttpRequest.reply (.deleteEnqueue id) outcome))
      (MatchmakerCore.cancel id) started := by
  unfold MatchmakerCore.cancel
  intro present asked choice first second _ _
  generalize answer : (semantics.perform choice present.world
    (.primaryGet id)).1 = found
  cases found with
  | none => exact .unknown id first answer second
  | some player =>
      intro met after choice' third fourth _ trace
      generalize outcome : (semantics.perform choice' met.world
        (.exchange player .tryEvict)).1 = success at trace ⊢
      cases success with
      | false =>
          refine .busy id first answer (second.trans third) ?_ fourth
          intro waiting
          exact Bool.false_ne_true
            (outcome.symm.trans (exchange_succeeds_iff.mpr waiting))
      | true =>
          have waiting := exchange_succeeds_iff.mp outcome
          show Attests _ _ _ (PlayerPool.remove id >>= _) _
          apply (attests_task _ _).bind
          intro _ removed fifth
          apply (attests_task _ _).bind
          intro _ gauged sixth
          apply (attests_task _ _).bind
          intro _ now seventh
          exact .cancelled id first answer (second.trans third) waiting
            fourth trace ((fifth.trans sixth).trans seventh)

theorem attests_core (request : HttpRequest) :
    Attests (Later config discipline) caller (fun outcome now =>
        Told config discipline started now caller request
          (request.reply outcome)) request.core started := by
  cases request with
  | postEnqueue body => exact attests_enqueue body
  | deleteEnqueue id => exact attests_cancel id

end Attests

theorem Told.later {config : Config} {discipline : Discipline}
    {started seen now : System} {caller : Nat} {request : HttpRequest}
    {answer : HttpResponse}
    (told : Told config discipline started seen caller request answer)
    (waited : Later config discipline seen now) :
    Told config discipline started now caller request answer := by
  cases told with
  | invalid body above => exact .invalid body above
  | queued body within first none second id skillRating third insertion
      fourth fifth =>
      exact .queued body within first none second id skillRating third
        insertion fourth (fifth.trans waited)
  | already body within first found second =>
      exact .already body within first found (second.trans waited)
  | cancelled id first found second unclaimed third eviction fourth =>
      exact .cancelled id first found second unclaimed third eviction
        (fourth.trans waited)
  | unknown id first none second =>
      exact .unknown id first none (second.trans waited)
  | busy id first found second claimed third =>
      exact .busy id first found second claimed (third.trans waited)

/-- A step keeps the calls as they are, unless it is an access of one. -/
theorem System.step_calls {config : Config} {system system' : System}
    {action : Action} (moved : system.step config action = some system') :
    (∀ (caller : Nat) call, system.calls[caller]? = some call →
        system'.calls[caller]? = some call) ∨
      ∃ mover choice, system.advance mover choice = some system' := by
  cases action with
  | start request =>
      obtain ⟨task, _, rfl⟩ := Option.map_eq_some_iff.mp moved
      left
      intro caller call found
      obtain ⟨bound, _⟩ := List.getElem?_eq_some_iff.mp found
      exact (List.getElem?_append_left bound).trans found
  | tick instant unixMs =>
      cases moved
      exact .inl fun _ _ found => found
  | step mover choice => exact .inr ⟨mover, choice, moved⟩

/-- What the program of a request attests to when it is started is right of the
answer: the state that the answer is about lies in between. -/
theorem System.attested {config : Config} {discipline : Discipline}
    {before started now : System} {request : Request}
    {post : Response → System → Prop}
    (start : before.step config (.start request) = some started)
    (later : Later config discipline started now)
    (attests : ∀ task, before.program config request = some task →
      Attests (Later config discipline) before.calls.length post task started)
    {response : Response} (returned : now.calls[before.calls.length]? =
      some ⟨request, .pure response⟩) :
    ∃ seen, Later config discipline seen now ∧ post response seen := by
  obtain ⟨task, launched, same⟩ := Option.map_eq_some_iff.mp start
  have found : started.calls[before.calls.length]? =
      some ⟨request, task⟩ := by
    rw [← same]
    exact List.getElem?_concat_length
  have testifies : Testifies (System.step config)
      (fun system action => discipline.permits system action = true)
      post before.calls.length started :=
    ⟨started, request, task, .start, found, attests task launched⟩
  exact testifies.returned later System.step_calls returned

theorem HttpRequest.told {config : Config} {discipline : Discipline}
    {before started now : System} (request : HttpRequest)
    (start : before.step config (.start request.call) = some started)
    (later : Later config discipline started now)
    {response : Response} (returned : now.calls[before.calls.length]? =
      some ⟨request.call, .pure response⟩) :
    ∃ outcome, response = request.response outcome ∧
      Told config discipline started now before.calls.length request
        (request.reply outcome) := by
  have attests : ∀ task, before.program config request.call = some task →
      Attests (Later config discipline) before.calls.length
        (fun response now => ∃ outcome, response = request.response outcome ∧
          Told config discipline started now before.calls.length request
            (request.reply outcome)) task started := by
    intro task launched
    rw [HttpRequest.program_call] at launched
    cases launched
    apply (attests_core request).map
    intro outcome now told
    exact ⟨outcome, rfl, told⟩
  obtain ⟨seen, waited, outcome, same, told⟩ :=
    System.attested start later attests returned
  exact ⟨outcome, same, told.later waited⟩

/-- Every answer to an enqueue or a cancel is one of six, and it was right at
a moment between the request and the answer. -/
theorem answers_right {config : Config} {discipline : Discipline}
    {before started now : System} (request : HttpRequest)
    (start : before.step config (.start request.call) = some started)
    (later : Later config discipline started now)
    {response : Response} (returned : now.calls[before.calls.length]? =
      some ⟨request.call, .pure response⟩) :
    ∃ outcome, response = request.response outcome ∧
      Told config discipline started now before.calls.length request
        (request.reply outcome) :=
  request.told start later returned

theorem exists_later {config : Config} {discipline : Discipline}
    {system : System} {actions : List Action} {check : System → Bool}
    (ran : (schedule (System.step config) discipline.permits system
      actions).any check = true) :
    ∃ final, Later config discipline system final ∧ check final = true := by
  obtain ⟨final, played, checked⟩ := (Option.any_eq_true _ _).mp ran
  exact ⟨final, Reachable.schedule (fun _ _ permitted => permitted) .start
    played, checked⟩

/-- What a cancel that has returned was about, and what it came to. -/
def System.cancelled? (system : System) (caller : Nat) :
    Option (Uuid × Except CancelError Unit) :=
  match system.calls[caller]? with
  | some ⟨.cancel id, .pure (.cancel outcome)⟩ => some (id, outcome)
  | _ => none

theorem System.found_of_cancelled {system : System} {caller : Nat}
    {id : Uuid} {outcome : Except CancelError Unit}
    (cancelled : system.cancelled? caller = some (id, outcome)) :
    system.calls[caller]? = some ⟨.cancel id, .pure (.cancel outcome)⟩ := by
  unfold cancelled? at cancelled
  split at cancelled
  · rename_i found
    cases cancelled
    exact found
  · cases cancelled

set_option maxRecDepth 100000 in
/-- A cancel meets a player whom an attempt has claimed. -/
theorem answers_right_busy :
    ∃ before started now, Run .default ⟨0, 1000⟩ .free before ∧
      Told .default .free started now before.calls.length (.deleteEnqueue 1)
        ⟨409, .error ⟨"Player 00000000-0000-0000-0000-000000000001" ++
          " is currently being matched — retry shortly", "CONFLICT"⟩⟩ := by
  obtain ⟨before, run, check⟩ : ∃ before,
      Run .default ⟨0, 1000⟩ .free before ∧
        ((before.step .default (.start (.cancel 1))).any fun started =>
          (schedule (System.step .default) Discipline.free.permits started
            (turns 11 2)).any fun now =>
              now.cancelled? before.calls.length =
                some (1, .error (.currentlyBeingMatched 1))) = true := by
    apply exists_run_of_play (arrivals 10 1500 ++
      .start (.attemptMatch 1) :: turns 10 85)
    decide +kernel
  obtain ⟨started, start, further⟩ := (Option.any_eq_true _ _).mp check
  obtain ⟨now, later, further⟩ := exists_later further
  have returned := System.found_of_cancelled (of_decide_eq_true further)
  obtain ⟨_, same, told⟩ :=
    answers_right (.deleteEnqueue 1) start later returned
  cases same
  exact ⟨before, started, now, run, told⟩

/-! What a cancel tells of the player that an accepted enqueue has added. -/

inductive Fate (config : Config) (discipline : Discipline)
    (started now : System) (caller : Nat) (player : Player) : Nat → Prop
  | cancelled (evicted : ⟨caller, player, .tryEvict⟩ ∈ transfers now.trace)
      (unpublished : player ∉ published now.trace) :
      Fate config discipline started now caller player 200
  | gone (settled : Settled player now.trace) :
      Fate config discipline started now caller player 404
  | busy {met : System} (first : Later config discipline started met)
      (second : Later config discipline met now)
      (taken : (met.world.cells player).state = .claimed ∨
        Settled player met.trace) :
      Fate config discipline started now caller player 409

theorem Later.settled {config : Config} {discipline : Discipline}
    {first second : System} {player : Player}
    (after : Later config discipline first second)
    (settled : Settled player first.trace) : Settled player second.trace := by
  obtain ⟨transfer, member, rest⟩ := settled
  exact ⟨transfer, (after.grows.trace.filterMap _).subset member, rest⟩

theorem Later.stored {config : Config} {discipline : Discipline}
    {first second : System} {player : Player}
    (after : Later config discipline first second)
    (member : player ∈ Matchmaker.stored first.trace) :
    player ∈ Matchmaker.stored second.trace :=
  (after.grows.trace.filterMap _).subset member

section Run

variable {config : Config} {clock : Clock} {system : System}

theorem Run.settled_of_absent
    (run : Run config clock (.both .noResets .distinctIds) system)
    {player : Player} (member : player ∈ stored system.trace)
    (absent : system.world.primary.lookup player.id = none) :
    Settled player system.trace := by
  by_contra unsettled
  have found := Run.live_kept (Run.registered run) ⟨member, unsettled⟩
  cases absent.symm.trans found

theorem Run.found_same
    (run : Run config clock (.both .noResets .distinctIds) system)
    {player other : Player} (member : player ∈ stored system.trace)
    (found : system.world.primary.lookup player.id = some other) :
    other = player :=
  Run.player_unique (Run.right run) (Run.stored_of_primary run found) member
    ((Run.sound run).keyed.primary found)

end Run

/-- Where every identifier is enqueued once and no claim is reset: a cancel
after an accepted enqueue has cancelled that very player, or found it matched or
cancelled already, or met it while it was claimed. -/
theorem cancel_fate {config : Config} {clock : Clock}
    {before started now : System} {enqueued : Nat} {id : Uuid}
    {skillRating depth : Nat}
    (run : Run config clock (.both .noResets .distinctIds) before)
    (accepted : before.calls[enqueued]? =
      some ⟨.enqueue id skillRating, .pure (.enqueue (.ok depth))⟩)
    (start : before.step config (.start (.cancel id)) = some started)
    (later : Later config (.both .noResets .distinctIds) started now)
    {outcome : Except CancelError Unit}
    (returned : now.calls[before.calls.length]? =
      some ⟨.cancel id, .pure (.cancel outcome)⟩) :
    ∃ player ∈ stored before.trace, player.id = id ∧
      player.skillRating = skillRating ∧
      Fate config (.both .noResets .distinctIds) started now
        before.calls.length player
        (HttpRequest.reply (.deleteEnqueue id) outcome).statusCode := by
  obtain ⟨player, _, member, rfl, rating⟩ := Run.enqueue_outcome run accepted
  refine ⟨player, member, rfl, rating, ?_⟩
  have began : Later config (.both .noResets .distinctIds) before started :=
    .step .start rfl start
  obtain ⟨_, same, told⟩ :=
    HttpRequest.told (.deleteEnqueue player.id) start later returned
  cases same
  have member := began.stored member
  generalize HttpRequest.reply (.deleteEnqueue player.id) outcome = answer at told
  have run := began.run run
  cases told with
  | cancelled _ first found second unclaimed third eviction fourth =>
      cases Run.found_same (first.run run) (first.stored member) found
      have own := Run.publishesOwn
        (Run.keptClaims_of_noResets (Run.left (later.run run)))
      have recorded := fourth.mem_trace (eviction ▸ List.mem_cons_self)
      have evicted : ⟨before.calls.length, player, .tryEvict⟩ ∈
          transfers now.trace := List.mem_filterMap.mpr ⟨_, recorded, rfl⟩
      exact .cancelled evicted
        (Run.published_not_evicted (later.run run) own evicted)
  | unknown _ first none second =>
      exact .gone (second.settled
        (Run.settled_of_absent (first.run run) (first.stored member) none))
  | busy _ first found second claimed third =>
      cases Run.found_same (first.run run) (first.stored member) found
      exact .busy (first.trans second) third
        (Run.taken ((first.trans second).run run) claimed)

/-- The player whom an enqueue has added, as it was asked for, and the size it
was told. -/
def System.enqueued? (system : System) (caller : Nat) :
    Option (Uuid × Nat × Nat) :=
  match system.calls[caller]? with
  | some ⟨.enqueue id skillRating, .pure (.enqueue (.ok depth))⟩ =>
      some (id, skillRating, depth)
  | _ => none

theorem System.found_of_enqueued {system : System} {caller : Nat}
    {id : Uuid} {skillRating depth : Nat}
    (enqueued : system.enqueued? caller = some (id, skillRating, depth)) :
    system.calls[caller]? =
      some ⟨.enqueue id skillRating, .pure (.enqueue (.ok depth))⟩ := by
  unfold enqueued? at enqueued
  split at enqueued
  · rename_i found
    cases enqueued
    exact found
  · cases enqueued

set_option maxRecDepth 100000 in
/-- A cancel comes after the match. -/
theorem cancel_fate_matched :
    ∃ before started now, ∃ player ∈ stored before.trace, player.id = 1 ∧
      player.skillRating = 1500 ∧
      Run .default ⟨0, 1000⟩ (.both .noResets .distinctIds) before ∧
      Fate .default (.both .noResets .distinctIds) started now
        before.calls.length player 404 := by
  obtain ⟨before, run, check⟩ : ∃ before : System,
      Run .default ⟨0, 1000⟩ (.both .noResets .distinctIds) before ∧
        (decide (before.enqueued? 0 = some (1, 1500, 1)) &&
        (before.step .default (.start (.cancel 1))).any fun started =>
          (schedule (System.step .default)
            (Discipline.both .noResets .distinctIds).permits started
            (turns 11 1)).any fun now =>
              now.cancelled? before.calls.length =
                some (1, .error (.notFound 1))) = true := by
    apply exists_run_of_play (arrivals 10 1500 ++
      .start (.attemptMatch 1) :: turns 10 147)
    decide +kernel
  obtain ⟨queued, further⟩ := Bool.and_eq_true_iff.mp check
  obtain ⟨started, start, further⟩ := (Option.any_eq_true _ _).mp further
  obtain ⟨now, later, further⟩ := exists_later further
  have accepted := System.found_of_enqueued (of_decide_eq_true queued)
  have returned := System.found_of_cancelled (of_decide_eq_true further)
  obtain ⟨player, member, id, rating, fate⟩ :=
    cancel_fate run accepted start later returned
  exact ⟨before, started, now, player, member, id, rating, run, fate⟩

end Matchmaker
