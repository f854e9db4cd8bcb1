import Matchmaker.Concurrent.Observers
import Matchmaker.Concurrent.Pool

namespace Concurrent

/-! What the value of a call tells of the moments at which its operations were
performed, whatever else went on in between. -/

variable {signature : Signature} {semantics : Semantics signature}
  {Request Response Action : Type}

/-- However the others move on between its operations, the program returns a
value that is right about the state after its last operation. -/
def Attests (later : Pool semantics Request Response →
      Pool semantics Request Response → Prop) (caller : Nat)
    (post : α → Pool semantics Request Response → Prop) :
    Program signature α → Pool semantics Request Response → Prop
  | .pure value, pool => post value pool
  | .perform operation next, pool =>
      ∀ before after choice, later pool before → later before after →
        after.world = (semantics.perform choice before.world operation).2 →
        after.trace = ⟨caller, operation,
          (semantics.perform choice before.world operation).1⟩ ::
            before.trace →
        Attests later caller post
          (next (semantics.perform choice before.world operation).1) after

section Rules

variable {later : Pool semantics Request Response →
    Pool semantics Request Response → Prop}
  {pool : Pool semantics Request Response} {caller : Nat}

theorem Attests.bind {post : α → Pool semantics Request Response → Prop}
    {post' : β → Pool semantics Request Response → Prop}
    {program : Program signature α} {rest : α → Program signature β}
    (first : Attests later caller post program pool)
    (second : ∀ value pool, post value pool →
      Attests later caller post' (rest value) pool) :
    Attests later caller post' (program >>= rest) pool := by
  induction program generalizing pool with
  | pure value => exact second value pool first
  | perform operation next induction =>
      intro before after choice waited moved world trace
      exact induction _ (first before after choice waited moved world trace)

theorem Attests.map {post : α → Pool semantics Request Response → Prop}
    {post' : β → Pool semantics Request Response → Prop}
    {program : Program signature α} {f : α → β}
    (attests : Attests later caller post program pool)
    (mapped : ∀ value pool, post value pool → post' (f value) pool) :
    Attests later caller post' (f <$> program) pool := by
  rw [map_eq_pure_bind]
  exact attests.bind mapped

theorem Attests.mono {post post' : α → Pool semantics Request Response → Prop}
    {program : Program signature α}
    (attests : Attests later caller post program pool)
    (weaken : ∀ value pool, post value pool → post' value pool) :
    Attests later caller post' program pool := by
  induction program generalizing pool with
  | pure value => exact weaken value pool attests
  | perform operation next induction =>
      intro before after choice waited moved world trace
      exact induction _ (attests before after choice waited moved world trace)

theorem Attests.both {post post' : α → Pool semantics Request Response → Prop}
    {program : Program signature α}
    (first : Attests later caller post program pool)
    (second : Attests later caller post' program pool) :
    Attests later caller (fun value pool => post value pool ∧ post' value pool)
      program pool := by
  induction program generalizing pool with
  | pure value => exact ⟨first, second⟩
  | perform operation next induction =>
      intro before after choice waited moved world trace
      exact induction _ (first before after choice waited moved world trace)
        (second before after choice waited moved world trace)

theorem Program.Yields.attests {permitted : signature.Operation → Prop}
    {post : α → Prop} {program : Program signature α}
    (yields : program.Yields permitted post) :
    Attests later caller (fun value _ => post value) program pool := by
  induction program generalizing pool with
  | pure value => exact yields
  | perform operation next induction =>
      intro before after choice _ _ _ _
      exact induction _ (yields.2 _)

/-- Every program takes its time. -/
theorem attests_later {program : Program signature α}
    (refl : ∀ pool, later pool pool)
    (trans : ∀ {first second third}, later first second →
      later second third → later first third) :
    Attests later caller (fun _ after => later pool after) program pool := by
  suffices ∀ start, later start pool →
      Attests later caller (fun _ after => later start after) program pool from
    this pool (refl pool)
  intro start reached
  induction program generalizing pool with
  | pure value => exact reached
  | perform operation next induction =>
      intro before after choice waited moved _ _
      exact induction _ (trans (trans reached waited) moved)

end Rules

section Reach

variable {move : Pool semantics Request Response → Action →
    Option (Pool semantics Request Response)}
  {permitted : Pool semantics Request Response → Action → Prop}
  {first now : Pool semantics Request Response} {caller : Nat}
  {post : Response → Pool semantics Request Response → Prop}

/-- The call is under way, and its program attests to what it will return. -/
def Testifies (move : Pool semantics Request Response → Action →
      Option (Pool semantics Request Response))
    (permitted : Pool semantics Request Response → Action → Prop)
    (post : Response → Pool semantics Request Response → Prop) (caller : Nat)
    (now : Pool semantics Request Response) : Prop :=
  ∃ seen request program, Leads move permitted seen now ∧
    now.calls[caller]? = some ⟨request, program⟩ ∧
    Attests (Leads move permitted) caller post program seen

theorem Testifies.advance {now' : Pool semantics Request Response}
    {mover : Nat} {choice : semantics.Choice}
    (testifies : Testifies move permitted post caller now)
    (moved : now.advance mover choice = some now')
    (leads : Leads move permitted now now') :
    Testifies move permitted post caller now' := by
  obtain ⟨seen, request, program, waited, found, attests⟩ := testifies
  obtain ⟨own, operation, next, looked, rfl⟩ := Pool.advance_cases moved
  by_cases same : mover = caller
  · subst same
    cases looked.symm.trans found
    obtain ⟨bound, _⟩ := List.getElem?_eq_some_iff.mp found
    refine ⟨_, request, _, .start, List.getElem?_set_self bound, ?_⟩
    exact attests now _ choice waited leads rfl rfl
  · exact ⟨seen, request, program, waited.trans leads,
      (List.getElem?_set_ne same).trans found, attests⟩

/-- What a call attests to when it is launched is right when it has returned:
the state that its value is about lies between the two. -/
theorem Testifies.returned
    (testifies : Testifies move permitted post caller first)
    (leads : Leads move permitted first now)
    (steps : ∀ {pool action pool'}, move pool action = some pool' →
      (∀ (caller : Nat) call, pool.calls[caller]? = some call →
        pool'.calls[caller]? = some call) ∨
      ∃ mover choice, pool.advance mover choice = some pool')
    {request : Request} {response : Response}
    (found : now.calls[caller]? = some ⟨request, .pure response⟩) :
    ∃ seen, Leads move permitted seen now ∧ post response seen := by
  have kept : Testifies move permitted post caller now := by
    clear found
    induction leads with
    | start => exact testifies
    | @step pool action pool' before allowed moved induction =>
        have one : Leads move permitted pool pool' := .step .start allowed moved
        rcases steps moved with same | ⟨mover, choice, advanced⟩
        · obtain ⟨seen, request, program, waited, found, attests⟩ := induction
          exact ⟨seen, request, program, waited.trans one,
            same caller _ found, attests⟩
        · exact induction.advance advanced one
  obtain ⟨seen, own, program, waited, there, attests⟩ := kept
  cases there.symm.trans found
  exact ⟨seen, waited, attests⟩

end Reach

end Concurrent
