import Matchmaker.Concurrent.Pool
import Matchmaker.Concurrent.Reachability

namespace Concurrent

/-! One call, followed from its start to its return. -/

namespace Pool

variable {signature : Signature} {semantics : Semantics signature}
  {Request Response : Type} {contract : Contract signature}
  {role : contract.Role} {post : Response → contract.Ghost → Prop}

/-- The call will obey the contract from where it stands. -/
def Stands (contract : Contract signature) (role : contract.Role)
    (post : Response → contract.Ghost → Prop)
    (pool : Pool semantics Request Response) (caller : Nat) : Prop :=
  ∃ request program, pool.calls[caller]? = some ⟨request, program⟩ ∧
    contract.Obeys role post program (contract.ghost caller pool.trace)

theorem Stands.launched {pool : Pool semantics Request Response}
    (traced : pool.Traced) {request : Request}
    {program : Program signature Response}
    (obeys : contract.Obeys role post program contract.initial) :
    (pool.launch request program).Stands contract role post
      pool.calls.length := by
  refine ⟨request, program, List.getElem?_concat_length, ?_⟩
  show contract.Obeys role post program (contract.ghost _ pool.trace)
  rw [Contract.ghost_of_silent fun event member =>
    Nat.ne_of_lt (traced event member)]
  exact obeys

theorem Stands.launch {pool : Pool semantics Request Response} {caller : Nat}
    (stands : pool.Stands contract role post caller) (request : Request)
    (program : Program signature Response) :
    (pool.launch request program).Stands contract role post caller := by
  obtain ⟨own, rest, found, obeys⟩ := stands
  obtain ⟨bound, _⟩ := List.getElem?_eq_some_iff.mp found
  exact ⟨own, rest, (List.getElem?_append_left bound).trans found, obeys⟩

/-- Only what the call itself is answered has to be credible. -/
theorem Stands.advance {pool pool' : Pool semantics Request Response}
    {caller mover : Nat} {choice : semantics.Choice}
    (stands : pool.Stands contract role post caller)
    (moved : pool.advance mover choice = some pool')
    (credible : ∀ operation,
      pool'.world = (semantics.perform choice pool.world operation).2 →
      contract.Credible operation
        (semantics.perform choice pool.world operation).1) :
    pool'.Stands contract role post caller := by
  obtain ⟨request, operation, next, found, rfl⟩ := advance_cases moved
  obtain ⟨own, program, standing, obeys⟩ := stands
  obtain ⟨bound, _⟩ := List.getElem?_eq_some_iff.mp found
  by_cases same : mover = caller
  · subst same
    cases found.symm.trans standing
    refine ⟨request, _, List.getElem?_set_self bound, ?_⟩
    rw [Contract.ghost_self]
    exact obeys.2 _ (credible operation rfl)
  · refine ⟨own, program, (List.getElem?_set_ne same).trans standing, ?_⟩
    rw [Contract.ghost_other same]
    exact obeys

theorem Stands.returned {pool : Pool semantics Request Response}
    {caller : Nat} {request : Request} {response : Response}
    (stands : pool.Stands contract role post caller)
    (found : pool.calls[caller]? = some ⟨request, .pure response⟩) :
    post response (contract.ghost caller pool.trace) := by
  obtain ⟨own, program, standing, obeys⟩ := stands
  cases found.symm.trans standing
  exact obeys

end Pool

/-- From one state to another by steps, `holds` being true all the time. -/
abbrev Throughout {State Action : Type}
    (step : State → Action → Option State) (holds : State → Prop)
    (first : State) : State → Prop :=
  Reachable step first fun state action =>
    holds state ∧ ∀ state' ∈ step state action, holds state'

end Concurrent
