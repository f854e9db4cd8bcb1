import Matchmaker.Concurrent.Contract

namespace Concurrent

/-- A call that was issued, and what is left of its program. -/
structure Call (signature : Signature) (Request Response : Type) where
  request : Request
  program : Program signature Response

/-- Calls in progress over one shared world. A call is named by its position;
`trace` records every operation performed so far, latest first. -/
structure Pool {signature : Signature} (semantics : Semantics signature)
    (Request Response : Type) where
  world : semantics.World
  calls : List (Call signature Request Response)
  trace : List (Event signature)

namespace Pool

variable {signature : Signature} {semantics : Semantics signature}
  {Request Response : Type}

def launch (pool : Pool semantics Request Response) (request : Request)
    (program : Program signature Response) :
    Pool semantics Request Response :=
  { pool with calls := pool.calls ++ [⟨request, program⟩] }

/-- Let one call perform its next atomic operation. -/
def advance (pool : Pool semantics Request Response) (caller : Nat)
    (choice : semantics.Choice) : Option (Pool semantics Request Response) :=
  match pool.calls[caller]? with
  | some ⟨request, .perform operation next⟩ =>
      let outcome := semantics.perform choice pool.world operation
      some {
        world := outcome.2
        calls := pool.calls.set caller ⟨request, next outcome.1⟩
        trace := ⟨caller, operation, outcome.1⟩ :: pool.trace }
  | _ => none

/-- Everything an atomic step can be. -/
theorem advance_cases {pool pool' : Pool semantics Request Response}
    {caller : Nat} {choice : semantics.Choice}
    (moved : pool.advance caller choice = some pool') :
    ∃ request operation next,
      pool.calls[caller]? = some ⟨request, .perform operation next⟩ ∧
      pool' = {
        world := (semantics.perform choice pool.world operation).2
        calls := pool.calls.set caller
          ⟨request, next (semantics.perform choice pool.world operation).1⟩
        trace := ⟨caller, operation,
          (semantics.perform choice pool.world operation).1⟩ :: pool.trace } := by
  unfold advance at moved
  split at moved
  · rename_i request operation next found
    exact ⟨request, operation, next, found, (Option.some.inj moved).symm⟩
  · cases moved

/-- Every event of the trace belongs to a call that was issued. -/
def Traced (pool : Pool semantics Request Response) : Prop :=
  ∀ event ∈ pool.trace, event.caller < pool.calls.length

theorem Traced.launch {pool : Pool semantics Request Response}
    (traced : pool.Traced) (request : Request)
    (program : Program signature Response) :
    (pool.launch request program).Traced := by
  intro event member
  have bound := traced event member
  simp only [Pool.launch, List.length_append, List.length_singleton]
  omega

theorem Traced.advance {pool pool' : Pool semantics Request Response}
    (traced : pool.Traced)
    (moved : pool.advance caller choice = some pool') : pool'.Traced := by
  obtain ⟨request, operation, next, found, rfl⟩ := advance_cases moved
  obtain ⟨bound, _⟩ := List.getElem?_eq_some_iff.mp found
  intro event member
  simp only [List.length_set]
  rcases List.mem_cons.mp member with rfl | earlier
  · exact bound
  · exact traced event earlier

/-- At most one call of the pool is selected. -/
def Exclusive (select : Call signature Request Response → Prop)
    (pool : Pool semantics Request Response) : Prop :=
  ∀ {first second : Nat} {call call' : Call signature Request Response},
    pool.calls[first]? = some call →
    pool.calls[second]? = some call' → select call → select call' →
    first = second

theorem launch_cases {pool : Pool semantics Request Response}
    {request : Request} {program : Program signature Response}
    {caller : Nat} {call : Call signature Request Response}
    (found : (pool.launch request program).calls[caller]? = some call) :
    pool.calls[caller]? = some call ∨
      caller = pool.calls.length ∧ call = ⟨request, program⟩ := by
  simp only [launch] at found
  by_cases old : caller < pool.calls.length
  · rw [List.getElem?_append_left old] at found
    exact .inl found
  · rw [List.getElem?_append_right (by omega)] at found
    obtain ⟨bound, equality⟩ := List.getElem?_eq_some_iff.mp found
    have index : caller = pool.calls.length := by
      simp only [List.length_singleton] at bound
      omega
    subst index
    simp only [Nat.sub_self, List.getElem_cons_zero] at equality
    exact .inr ⟨rfl, equality.symm⟩

theorem Exclusive.launch {select : Call signature Request Response → Prop}
    {pool : Pool semantics Request Response} {request : Request}
    {program : Program signature Response}
    (exclusive : pool.Exclusive select)
    (idle : select ⟨request, program⟩ →
      ∀ call ∈ pool.calls, ¬ select call) :
    (pool.launch request program).Exclusive select := by
  intro first second call call' found found' selected selected'
  rcases launch_cases found with old | ⟨index, rfl⟩
  · rcases launch_cases found' with old' | ⟨_, rfl⟩
    · exact exclusive old old' selected selected'
    · exact absurd selected (idle selected' call (List.mem_of_getElem? old))
  · rcases launch_cases found' with old' | ⟨index', _⟩
    · exact absurd selected' (idle selected call' (List.mem_of_getElem? old'))
    · rw [index, index']

theorem Exclusive.advance {select : Call signature Request Response → Prop}
    {pool pool' : Pool semantics Request Response}
    (exclusive : pool.Exclusive select)
    (back : ∀ request operation next result,
      select ⟨request, next result⟩ → select ⟨request, .perform operation next⟩)
    (moved : pool.advance caller choice = some pool') :
    pool'.Exclusive select := by
  obtain ⟨request, operation, next, found, rfl⟩ := advance_cases moved
  obtain ⟨bound, _⟩ := List.getElem?_eq_some_iff.mp found
  have before : ∀ {index : Nat} {call : Call signature Request Response},
      (pool.calls.set caller ⟨request, next
        (semantics.perform choice pool.world operation).1⟩)[index]? =
          some call → select call →
      ∃ call, pool.calls[index]? = some call ∧ select call := by
    intro index call reached selected
    by_cases same : caller = index
    · subst same
      rw [List.getElem?_set_self bound] at reached
      cases reached
      exact ⟨_, found, back _ _ _ _ selected⟩
    · rw [List.getElem?_set_ne same] at reached
      exact ⟨call, reached, selected⟩
  intro first second call call' reached reached' selected selected'
  obtain ⟨earlier, old, was⟩ := before reached selected
  obtain ⟨earlier', old', was'⟩ := before reached' selected'
  exact exclusive old old' was was'

variable (contract : Contract signature)
  (role : Request → contract.Role)
  (post : Request → Response → contract.Ghost → Prop)

/-- Every call in the pool will obey the contract from where it stands. -/
def Follows (pool : Pool semantics Request Response) : Prop :=
  ∀ caller call, pool.calls[caller]? = some call →
    contract.Obeys (role call.request) (post call.request) call.program
      (contract.ghost caller pool.trace)

variable {contract role post}

theorem Follows.launch {pool : Pool semantics Request Response}
    (follows : pool.Follows contract role post) (traced : pool.Traced)
    {request : Request} {program : Program signature Response}
    (obeys : contract.Obeys (role request) (post request) program
      contract.initial) :
    (pool.launch request program).Follows contract role post := by
  intro caller call found
  rcases launch_cases found with old | ⟨rfl, rfl⟩
  · exact follows caller call old
  · show contract.Obeys _ _ _ (contract.ghost _ pool.trace)
    rw [Contract.ghost_of_silent fun event member =>
      Nat.ne_of_lt (traced event member)]
    exact obeys

/-- The operation that a following call performs is allowed, and the call goes
on following as long as the world answers plausibly. -/
theorem Follows.advance_next {pool pool' : Pool semantics Request Response}
    (follows : pool.Follows contract role post)
    (moved : pool.advance caller choice = some pool')
    (credible : ∀ {request operation next},
      pool.calls[caller]? = some ⟨request, .perform operation next⟩ →
      contract.Credible operation
        (semantics.perform choice pool.world operation).1) :
    pool'.Follows contract role post := by
  obtain ⟨request, operation, next, found, rfl⟩ := advance_cases moved
  have own := follows caller _ found
  intro other call lookup
  by_cases same : caller = other
  · subst same
    obtain ⟨bound, _⟩ := List.getElem?_eq_some_iff.mp found
    rw [List.getElem?_set_self bound] at lookup
    cases lookup
    rw [Contract.ghost_self]
    exact own.2 _ (credible found)
  · rw [List.getElem?_set_ne same] at lookup
    rw [Contract.ghost_other same]
    exact follows other call lookup

theorem Follows.advance {pool pool' : Pool semantics Request Response}
    (follows : pool.Follows contract role post)
    (moved : pool.advance caller choice = some pool')
    (credible : ∀ operation,
      contract.Credible operation
        (semantics.perform choice pool.world operation).1) :
    pool'.Follows contract role post :=
  follows.advance_next moved fun _ => credible _

theorem Follows.returned {pool : Pool semantics Request Response}
    (follows : pool.Follows contract role post)
    (found : pool.calls[caller]? = some ⟨request, .pure response⟩) :
    post request response (contract.ghost caller pool.trace) :=
  follows caller _ found

end Pool

end Concurrent
