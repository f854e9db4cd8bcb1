import Matchmaker.System

namespace Matchmaker

open Concurrent

/-! The two endpoints that change the queue. -/

/-- The text of an identifier: 32 digits in groups of 8, 4, 4, 4 and 12. -/
def Uuid.hyphenated (id : Uuid) : String :=
  let digits (first count : Nat) : List Char :=
    (List.range count).map fun place =>
      Nat.digitChar (id.val / 16 ^ (31 - (first + place)) % 16)
  String.ofList (digits 0 8 ++ '-' :: digits 8 4 ++ '-' :: digits 12 4 ++
    '-' :: digits 16 4 ++ '-' :: digits 20 12)

section Hyphenated

variable {left right : Uuid} {first count place : Nat}

theorem digitChar_inj : ∀ left < 16, ∀ right < 16,
    Nat.digitChar left = Nat.digitChar right → left = right := by
  decide

/-- A number is made of its digits. -/
theorem eq_of_digits {left right : Nat} (count : Nat)
    (below : left < 16 ^ count) (below' : right < 16 ^ count)
    (same : ∀ place < count,
      left / 16 ^ place % 16 = right / 16 ^ place % 16) : left = right := by
  induction count generalizing left right with
  | zero =>
      rw [pow_zero] at below below'
      omega
  | succ count induction =>
      have last := same 0 (Nat.succ_pos count)
      rw [pow_zero, Nat.div_one, Nat.div_one] at last
      rw [pow_succ'] at below below'
      have rest : left / 16 = right / 16 := by
        apply induction (Nat.div_lt_of_lt_mul below)
          (Nat.div_lt_of_lt_mul below')
        intro place inside
        have next := same (place + 1) (Nat.succ_lt_succ inside)
        rwa [pow_succ', ← Nat.div_div_eq_div_mul,
          ← Nat.div_div_eq_div_mul] at next
      omega

/-- A group of the digits of an identifier. -/
def digitsOf (id : Uuid) (first count : Nat) : List Char :=
  (List.range count).map fun place =>
    Nat.digitChar (id.val / 16 ^ (31 - (first + place)) % 16)

theorem length_digitsOf : (digitsOf left first count).length = count := by
  rw [digitsOf, List.length_map, List.length_range]

theorem digit_of_digitsOf
    (same : digitsOf left first count = digitsOf right first count)
    (inside : place < 32) (least : first ≤ 31 - place)
    (most : 31 - place < first + count) :
    left.val / 16 ^ place % 16 = right.val / 16 ^ place % 16 := by
  have each := List.map_inj_left.mp same (31 - place - first)
    (List.mem_range.mpr (by omega))
  rw [show 31 - (first + (31 - place - first)) = place by omega] at each
  exact digitChar_inj _ (Nat.mod_lt _ (by decide)) _
    (Nat.mod_lt _ (by decide)) each

/-- No two identifiers have one text. -/
theorem Uuid.hyphenated_injective : Function.Injective hyphenated := by
  intro left right same
  have chars : digitsOf left 0 8 ++ '-' :: digitsOf left 8 4 ++
      '-' :: digitsOf left 12 4 ++ '-' :: digitsOf left 16 4 ++
      '-' :: digitsOf left 20 12 = digitsOf right 0 8 ++
      '-' :: digitsOf right 8 4 ++ '-' :: digitsOf right 12 4 ++
      '-' :: digitsOf right 16 4 ++ '-' :: digitsOf right 20 12 :=
    String.ofList_injective same
  obtain ⟨chars, fifth⟩ := List.append_inj' chars (by simp [length_digitsOf])
  obtain ⟨chars, fourth⟩ := List.append_inj' chars (by simp [length_digitsOf])
  obtain ⟨chars, third⟩ := List.append_inj' chars (by simp [length_digitsOf])
  obtain ⟨foremost, second⟩ :=
    List.append_inj' chars (by simp [length_digitsOf])
  have below : 2 ^ 128 = 16 ^ 32 := by decide
  apply Fin.ext
  apply eq_of_digits 32 (left.isLt.trans_eq below) (right.isLt.trans_eq below)
  intro place inside
  rcases Nat.lt_or_ge (31 - place) 8 with group | group
  · exact digit_of_digitsOf foremost inside (Nat.zero_le _) (by omega)
  rcases Nat.lt_or_ge (31 - place) 12 with group' | group'
  · exact digit_of_digitsOf (List.cons.inj second).2 inside group (by omega)
  rcases Nat.lt_or_ge (31 - place) 16 with group | group
  · exact digit_of_digitsOf (List.cons.inj third).2 inside group' (by omega)
  rcases Nat.lt_or_ge (31 - place) 20 with group' | group'
  · exact digit_of_digitsOf (List.cons.inj fourth).2 inside group (by omega)
  · exact digit_of_digitsOf (List.cons.inj fifth).2 inside group' (by omega)

end Hyphenated

structure EnqueueRequest where
  id : Uuid
  skillRating : Nat
deriving DecidableEq

structure EnqueueResponse where
  playerId : Uuid
  status : String
  queueDepth : Nat
deriving DecidableEq

structure CancelResponse where
  playerId : Uuid
  status : String
deriving DecidableEq

structure ErrorResponse where
  error : String
  code : String
deriving DecidableEq

inductive Body
  | enqueued (response : EnqueueResponse)
  | cancelled (response : CancelResponse)
  | error (response : ErrorResponse)
deriving DecidableEq

structure HttpResponse where
  statusCode : Nat
  body : Body
deriving DecidableEq

inductive AppError
  | badRequest (message : String)
  | conflict (message : String)
  | notFound (message : String)
  | unprocessableEntity (message : String)
deriving DecidableEq

def AppError.intoResponse : AppError → HttpResponse
  | .badRequest message => ⟨400, .error ⟨message, "BAD_REQUEST"⟩⟩
  | .conflict message => ⟨409, .error ⟨message, "CONFLICT"⟩⟩
  | .notFound message => ⟨404, .error ⟨message, "NOT_FOUND"⟩⟩
  | .unprocessableEntity message =>
      ⟨422, .error ⟨message, "VALIDATION_ERROR"⟩⟩

/-- What a client gets for the result of a handler. -/
def intoResponse (wrap : α → Body) : Except AppError (Nat × α) → HttpResponse
  | .ok (statusCode, response) => ⟨statusCode, wrap response⟩
  | .error error => error.intoResponse

/-- How `POST /enqueue` answers for what the core says. -/
def enqueueReply (body : EnqueueRequest) :
    Except EnqueueError Nat → Except AppError (Nat × EnqueueResponse)
  | .ok queueDepth => .ok (200, ⟨body.id, "queued", queueDepth⟩)
  | .error (.alreadyQueued id) =>
      .error (.conflict
        ("Player " ++ id.hyphenated ++ " is already queued"))
  | .error (.invalidSkillRating skillRating limit) =>
      .error (.unprocessableEntity ("skill_rating " ++ toString skillRating ++
        " exceeds maximum " ++ toString limit))

def enqueueHandler (body : EnqueueRequest) :
    Task (Except AppError (Nat × EnqueueResponse)) := do
  if maxSkillRating < body.skillRating then
    return .error (.unprocessableEntity
      ("skill_rating must be between 0 and " ++ toString maxSkillRating))
  else
    return enqueueReply body
      (← MatchmakerCore.enqueue body.id body.skillRating)

/-- How `DELETE /enqueue/:player_id` answers for what the core says. -/
def cancelReply (playerId : Uuid) :
    Except CancelError Unit → Except AppError (Nat × CancelResponse)
  | .ok () => .ok (200, ⟨playerId, "cancelled"⟩)
  | .error (.notFound id) =>
      .error (.notFound ("Player " ++ id.hyphenated ++ " not found"))
  | .error (.currentlyBeingMatched id) =>
      .error (.conflict ("Player " ++ id.hyphenated ++
        " is currently being matched — retry shortly"))

def cancelHandler (playerId : Uuid) :
    Task (Except AppError (Nat × CancelResponse)) := do
  return cancelReply playerId (← MatchmakerCore.cancel playerId)

inductive HttpRequest
  | postEnqueue (body : EnqueueRequest)
  | deleteEnqueue (playerId : Uuid)
deriving DecidableEq

namespace HttpRequest

def handler : HttpRequest → Task HttpResponse
  | .postEnqueue body => intoResponse .enqueued <$> enqueueHandler body
  | .deleteEnqueue playerId =>
      intoResponse .cancelled <$> cancelHandler playerId

/-! What a handler does is the call of the core that it makes, up to the form
of the answer. -/

def call : HttpRequest → Request
  | .postEnqueue body => .enqueue body.id body.skillRating
  | .deleteEnqueue playerId => .cancel playerId

@[reducible] def Outcome : HttpRequest → Type
  | .postEnqueue _ => Except EnqueueError Nat
  | .deleteEnqueue _ => Except CancelError Unit

def core : (request : HttpRequest) → Task request.Outcome
  | .postEnqueue body => MatchmakerCore.enqueue body.id body.skillRating
  | .deleteEnqueue playerId => MatchmakerCore.cancel playerId

def response : (request : HttpRequest) → request.Outcome → Response
  | .postEnqueue _ => .enqueue
  | .deleteEnqueue _ => .cancel

def reply : (request : HttpRequest) → request.Outcome → HttpResponse
  | .postEnqueue body, outcome =>
      if maxSkillRating < body.skillRating then
        AppError.intoResponse (.unprocessableEntity
          ("skill_rating must be between 0 and " ++ toString maxSkillRating))
      else intoResponse .enqueued (enqueueReply body outcome)
  | .deleteEnqueue playerId, outcome =>
      intoResponse .cancelled (cancelReply playerId outcome)

/-- A rating that is too high is turned down before the core is asked, and the
core would not have touched anything either. -/
theorem handler_eq (request : HttpRequest) :
    request.handler = request.reply <$> request.core := by
  cases request with
  | postEnqueue body =>
      simp only [handler, core, enqueueHandler]
      split
      · rename_i above
        rw [MatchmakerCore.enqueue, if_pos above]
        simp [reply, above, intoResponse]
      · rename_i within
        have same : (postEnqueue body).reply = fun outcome =>
            intoResponse .enqueued (enqueueReply body outcome) :=
          funext fun _ => if_neg within
        rw [same]
        simp
  | deleteEnqueue playerId =>
      show _ = (fun outcome =>
        intoResponse .cancelled (cancelReply playerId outcome)) <$> _
      simp [handler, core, cancelHandler]

theorem program_call (config : Config) (system : System)
    (request : HttpRequest) :
    system.program config request.call =
      some (request.response <$> request.core) := by
  cases request <;> rfl

end HttpRequest

end Matchmaker
