import Matchmaker.Concurrent.Pool

namespace Concurrent

/-! Programs that may stop with a failure, beside programs that do not check. -/

variable {signature : Signature} {Failure : Type}

/-- A program that may stop with a failure. -/
abbrev Checked (signature : Signature) (Failure : Type) : Type → Type :=
  ExceptT Failure (Program signature)

namespace Contract

section Definition

variable (contract : Contract signature)
  (expects : contract.Ghost → (operation : signature.Operation) →
    signature.Result operation → Prop)

/-- Access by access the checked program does what the plain one does, and no
check fails, as long as every result is expected after what was done before. -/
inductive Mirrors (role : contract.Role) (post : α → contract.Ghost → Prop) :
    Checked signature Failure α → Program signature α → contract.Ghost → Prop
  | pure (value : α) (ghost : contract.Ghost) (holds : post value ghost) :
      Mirrors role post (Program.pure (.ok value)) (.pure value) ghost
  | perform {operation : signature.Operation}
      {checked : signature.Result operation → Checked signature Failure α}
      {plain : signature.Result operation → Program signature α}
      {ghost : contract.Ghost} (allowed : contract.Allowed role ghost operation)
      (next : ∀ result, expects ghost operation result →
        Mirrors role post (checked result) (plain result)
          (contract.next ghost operation result)) :
      Mirrors role post (Program.perform operation checked)
        (.perform operation plain) ghost

end Definition

namespace Mirrors

variable {contract : Contract signature}
  {expects : contract.Ghost → (operation : signature.Operation) →
    signature.Result operation → Prop} {role : contract.Role}

theorem mono {post post' : α → contract.Ghost → Prop}
    {checked : Checked signature Failure α} {plain : Program signature α}
    {ghost : contract.Ghost}
    (mirrors : contract.Mirrors expects role post checked plain ghost)
    (weaken : ∀ value ghost, post value ghost → post' value ghost) :
    contract.Mirrors expects role post' checked plain ghost := by
  induction mirrors with
  | pure value ghost holds => exact .pure value ghost (weaken value ghost holds)
  | perform allowed next induction => exact .perform allowed induction

theorem bind {post : α → contract.Ghost → Prop}
    {post' : β → contract.Ghost → Prop}
    {checked : Checked signature Failure α}
    {plain : Program signature α}
    {checkedRest : α → Checked signature Failure β}
    {plainRest : α → Program signature β} {ghost : contract.Ghost}
    (first : contract.Mirrors expects role post checked plain ghost)
    (second : ∀ value ghost, post value ghost →
      contract.Mirrors expects role post' (checkedRest value)
        (plainRest value) ghost) :
    contract.Mirrors expects role post' (checked >>= checkedRest)
      (plain >>= plainRest) ghost := by
  induction first with
  | pure value ghost holds => exact second value ghost holds
  | perform allowed next induction =>
      apply Mirrors.perform allowed
      intro result expected
      exact induction result expected

theorem request {operation : signature.Operation}
    {post : signature.Result operation → contract.Ghost → Prop}
    {ghost : contract.Ghost} (allowed : contract.Allowed role ghost operation)
    (holds : ∀ result, expects ghost operation result →
      post result (contract.next ghost operation result)) :
    contract.Mirrors expects role post
      (liftM (Program.request operation) :
        Checked signature Failure (signature.Result operation))
      (Program.request operation) ghost := by
  apply Mirrors.perform allowed
  intro result expected
  exact .pure result _ (holds result expected)

theorem lift (believed : ∀ {ghost operation result},
      expects ghost operation result → contract.Credible operation result)
    {post : α → contract.Ghost → Prop} {program : Program signature α}
    {ghost : contract.Ghost}
    (obeys : contract.Obeys role post program ghost) :
    contract.Mirrors expects role post
      (liftM program : Checked signature Failure α) program ghost := by
  induction program generalizing ghost with
  | pure value => exact .pure value ghost obeys
  | perform operation next induction =>
      apply Mirrors.perform obeys.1
      intro result expected
      exact induction result (obeys.2 result (believed expected))

theorem check {post : β → contract.Ghost → Prop}
    {checked : Except Failure α} {value : α}
    {rest : α → Checked signature Failure β}
    {plain : Program signature β} {ghost : contract.Ghost}
    (passes : checked = .ok value)
    (after : contract.Mirrors expects role post (rest value) plain ghost) :
    contract.Mirrors expects role post
      ((liftM checked : Checked signature Failure α) >>= rest) plain
      ghost := by
  subst passes
  exact after

theorem ok {post : α → contract.Ghost → Prop} {value : α}
    {ghost : contract.Ghost} (holds : post value ghost) :
    contract.Mirrors expects role post
      (Pure.pure value : Checked signature Failure α)
      (Pure.pure value) ghost :=
  .pure value ghost holds

theorem map {post : α → contract.Ghost → Prop}
    {post' : β → contract.Ghost → Prop}
    {checked : Checked signature Failure α} {plain : Program signature α}
    {f : α → β} {ghost : contract.Ghost}
    (mirrors : contract.Mirrors expects role post checked plain ghost)
    (mapped : ∀ value ghost, post value ghost → post' (f value) ghost) :
    contract.Mirrors expects role post' (f <$> checked) (f <$> plain)
      ghost := by
  rw [map_eq_pure_bind, map_eq_pure_bind]
  apply mirrors.bind
  intro value ghost holds
  exact ok (mapped value ghost holds)

theorem mapM {relation : ι → α → Prop} {invariant : contract.Ghost → Prop}
    {checked : ι → Checked signature Failure α}
    {plain : ι → Program signature α} {items : List ι}
    {ghost : contract.Ghost} (before : invariant ghost)
    (each : ∀ item ∈ items, ∀ ghost, invariant ghost →
      contract.Mirrors expects role
        (fun value later => relation item value ∧ invariant later)
        (checked item) (plain item) ghost) :
    contract.Mirrors expects role
      (fun values later => List.Forall₂ relation items values ∧
        invariant later) (items.mapM checked) (items.mapM plain) ghost := by
  induction items generalizing ghost with
  | nil => exact ok ⟨.nil, before⟩
  | cons item rest induction =>
      rw [List.mapM_cons, List.mapM_cons]
      apply (each item (List.mem_cons_self ..) ghost before).bind
      intro value ghost first
      have others := @induction ghost first.2 fun item member =>
        each item (List.mem_cons_of_mem _ member)
      apply others.bind
      intro values ghost matching
      exact ok ⟨.cons first.1 matching.1, matching.2⟩

end Mirrors

end Contract

namespace Pool

variable {semantics : Semantics signature} {Request Response : Type}

section Definition

variable (contract : Contract signature)
  (expects : contract.Ghost → (operation : signature.Operation) →
    signature.Result operation → Prop) (role : Request → contract.Role)
  (post : Request → Response → contract.Ghost → Prop)

/-- The same request, and programs that will go on alike. -/
def MirrorsCall (ghost : contract.Ghost)
    (checked : Call signature Request (Except Failure Response))
    (plain : Call signature Request Response) : Prop :=
  checked.request = plain.request ∧
    contract.Mirrors expects (role plain.request) (post plain.request)
      checked.program plain.program ghost

/-- Two pools in one world after one trace, with the checked calls in the
first and the plain ones in the second. -/
structure Mirrors (checked : Pool semantics Request (Except Failure Response))
    (plain : Pool semantics Request Response) : Prop where
  world : checked.world = plain.world
  trace : checked.trace = plain.trace
  calls : ∀ caller, Option.Rel
    (MirrorsCall contract expects role post (contract.ghost caller plain.trace))
    checked.calls[caller]? plain.calls[caller]?

end Definition

namespace Mirrors

variable {contract : Contract signature}
  {expects : contract.Ghost → (operation : signature.Operation) →
    signature.Result operation → Prop} {role : Request → contract.Role}
  {post : Request → Response → contract.Ghost → Prop}
  {checked : Pool semantics Request (Except Failure Response)}
  {plain : Pool semantics Request Response} {caller : Nat}

theorem lookup (mirrors : Mirrors contract expects role post checked plain)
    {call : Call signature Request (Except Failure Response)}
    (found : checked.calls[caller]? = some call) :
    ∃ call', plain.calls[caller]? = some call' ∧
      MirrorsCall contract expects role post (contract.ghost caller plain.trace) call
        call' := by
  have here := mirrors.calls caller
  rw [found] at here
  cases found' : plain.calls[caller]? with
  | none =>
      rw [found'] at here
      cases here
  | some call' =>
      rw [found'] at here
      cases here with
      | some alike => exact ⟨call', rfl, alike⟩

theorem length (mirrors : Mirrors contract expects role post checked plain) :
    checked.calls.length = plain.calls.length := by
  apply le_antisymm
  · have here := mirrors.calls plain.calls.length
    rw [List.getElem?_eq_none le_rfl] at here
    cases found : checked.calls[plain.calls.length]? with
    | none => exact List.getElem?_eq_none_iff.mp found
    | some call =>
        rw [found] at here
        cases here
  · have here := mirrors.calls checked.calls.length
    rw [List.getElem?_eq_none le_rfl] at here
    cases found : plain.calls[checked.calls.length]? with
    | none => exact List.getElem?_eq_none_iff.mp found
    | some call =>
        rw [found] at here
        cases here

theorem alike (mirrors : Mirrors contract expects role post checked plain) :
    List.Forall₂ (fun call call' => ∃ ghost,
      MirrorsCall contract expects role post ghost call call')
      checked.calls plain.calls := by
  apply List.forall₂_iff_get.mpr
  refine ⟨mirrors.length, ?_⟩
  intro caller bound bound'
  have here := mirrors.calls caller
  rw [List.getElem?_eq_getElem bound, List.getElem?_eq_getElem bound'] at here
  cases here with
  | some alike => exact ⟨_, alike⟩

theorem not_failed (mirrors : Mirrors contract expects role post checked plain)
    {call : Call signature Request (Except Failure Response)}
    (member : call ∈ checked.calls) (failure : Failure) :
    call.program ≠ Program.pure (.error failure) := by
  intro failed
  obtain ⟨caller, found⟩ := List.getElem?_of_mem member
  obtain ⟨call', _, _, mirrored⟩ := mirrors.lookup found
  rw [failed] at mirrored
  cases mirrored

theorem launch (mirrors : Mirrors contract expects role post checked plain)
    (traced : plain.Traced) {request : Request}
    {checkedProgram : Checked signature Failure Response}
    {program : Program signature Response}
    (mirrored : contract.Mirrors expects (role request) (post request)
      checkedProgram program contract.initial) :
    Mirrors contract expects role post (checked.launch request checkedProgram)
      (plain.launch request program) where
  world := mirrors.world
  trace := mirrors.trace
  calls := by
    intro caller
    have same := mirrors.length
    simp only [Pool.launch]
    rcases Nat.lt_trichotomy caller plain.calls.length with old | last | beyond
    · rw [List.getElem?_append_left old,
        List.getElem?_append_left (same ▸ old)]
      exact mirrors.calls caller
    · subst last
      rw [List.getElem?_concat_length, ← same, List.getElem?_concat_length,
        Contract.ghost_of_silent]
      · exact .some ⟨rfl, mirrored⟩
      · intro event member
        exact Nat.ne_of_lt (same ▸ traced event member)
    · rw [List.getElem?_eq_none (by simp; omega),
        List.getElem?_eq_none (by simp; omega)]
      exact .none

theorem advance (mirrors : Mirrors contract expects role post checked plain)
    {choice : semantics.Choice}
    (expected : ∀ operation, expects (contract.ghost caller plain.trace)
      operation (semantics.perform choice plain.world operation).1) :
    Option.Rel (Mirrors contract expects role post) (checked.advance caller choice)
      (plain.advance caller choice) := by
  have here := mirrors.calls caller
  unfold Pool.advance
  cases found : checked.calls[caller]? with
  | none =>
      cases found' : plain.calls[caller]? with
      | none => exact .none
      | some call' =>
          rw [found, found'] at here
          cases here
  | some call =>
      obtain ⟨call', found', alike⟩ := mirrors.lookup found
      obtain ⟨request, checkedProgram⟩ := call
      obtain ⟨request', program⟩ := call'
      obtain ⟨rfl, mirrored⟩ := alike
      obtain ⟨bound, _⟩ := List.getElem?_eq_some_iff.mp found
      obtain ⟨bound', _⟩ := List.getElem?_eq_some_iff.mp found'
      rw [found', mirrors.world, mirrors.trace]
      cases mirrored with
      | pure value ghost holds => exact .none
      | perform allowed next =>
          apply Option.Rel.some
          refine ⟨rfl, rfl, ?_⟩
          intro other
          by_cases same : caller = other
          · subst same
            rw [List.getElem?_set_self bound, List.getElem?_set_self bound',
              Contract.ghost_self]
            exact .some ⟨rfl, next _ (expected _)⟩
          · rw [List.getElem?_set_ne same, List.getElem?_set_ne same,
              Contract.ghost_other same]
            exact mirrors.calls other

end Mirrors

/-- The checked calls have come as far as the plain ones, and those that have
returned have returned the same, without failure. -/
structure Agrees (checked : Pool semantics Request (Except Failure Response))
    (plain : Pool semantics Request Response) : Prop where
  world : checked.world = plain.world
  trace : checked.trace = plain.trace
  calls : List.Forall₂
    (fun call call' => call.request = call'.request ∧
      call.program.returned? = call'.program.returned?.map .ok)
    checked.calls plain.calls

theorem Mirrors.agrees {contract : Contract signature}
    {expects : contract.Ghost → (operation : signature.Operation) →
      signature.Result operation → Prop} {role : Request → contract.Role}
    {post : Request → Response → contract.Ghost → Prop}
    {checked : Pool semantics Request (Except Failure Response)}
    {plain : Pool semantics Request Response}
    (mirrors : Mirrors contract expects role post checked plain) :
    checked.Agrees plain where
  world := mirrors.world
  trace := mirrors.trace
  calls := by
    apply mirrors.alike.imp
    intro call call' alike
    obtain ⟨request, checkedProgram⟩ := call
    obtain ⟨request', program⟩ := call'
    obtain ⟨ghost, same, mirrored⟩ := alike
    refine ⟨same, ?_⟩
    cases mirrored with
    | pure value ghost holds => rfl
    | perform allowed next => rfl

end Pool

end Concurrent
