import Mathlib.Algebra.BigOperators.Group.Finset.Basic
import Matchmaker.Concurrent.Execution

namespace Concurrent

/-- One atomic operation that was performed, by which call and with which
result. Traces list the latest event first. -/
structure Event (signature : Signature) where
  caller : Nat
  operation : signature.Operation
  result : signature.Result operation

/-- A protocol for the calls of one machine. Each call carries a ghost state,
computed from its own operations alone. The contract says which operations a
call in a given role may perform next, and which results it may count on. -/
structure Contract (signature : Signature) where
  Role : Type
  Ghost : Type
  initial : Ghost
  next : Ghost → (operation : signature.Operation) →
    signature.Result operation → Ghost
  Allowed : Role → Ghost → signature.Operation → Prop
  Credible : (operation : signature.Operation) →
    signature.Result operation → Prop

namespace Contract

variable {signature : Signature} (contract : Contract signature)

/-- The program performs allowed operations only, whatever credible results it
is given, and when it returns its value and ghost state satisfy `post`. -/
def Obeys (role : contract.Role) (post : α → contract.Ghost → Prop) :
    Program signature α → contract.Ghost → Prop
  | .pure value, ghost => post value ghost
  | .perform operation next, ghost =>
      contract.Allowed role ghost operation ∧
        ∀ result, contract.Credible operation result →
          Obeys role post (next result) (contract.next ghost operation result)

variable {contract} {role : contract.Role}

@[simp] theorem obeys_pure (post : α → contract.Ghost → Prop) (value : α)
    (ghost : contract.Ghost) :
    contract.Obeys role post (pure value) ghost ↔ post value ghost :=
  Iff.rfl

theorem Obeys.mono {post post' : α → contract.Ghost → Prop}
    {program : Program signature α} {ghost : contract.Ghost}
    (obeys : contract.Obeys role post program ghost)
    (weaken : ∀ value ghost, post value ghost → post' value ghost) :
    contract.Obeys role post' program ghost := by
  induction program generalizing ghost with
  | pure value => exact weaken value ghost obeys
  | perform operation next induction =>
      refine ⟨obeys.1, ?_⟩
      intro result credible
      exact induction result (obeys.2 result credible)

theorem Obeys.bind {post : α → contract.Ghost → Prop}
    {post' : β → contract.Ghost → Prop} {program : Program signature α}
    {rest : α → Program signature β} {ghost : contract.Ghost}
    (first : contract.Obeys role post program ghost)
    (second : ∀ value ghost, post value ghost →
      contract.Obeys role post' (rest value) ghost) :
    contract.Obeys role post' (program >>= rest) ghost := by
  induction program generalizing ghost with
  | pure value => exact second value ghost first
  | perform operation next induction =>
      refine ⟨first.1, ?_⟩
      intro result credible
      exact induction result (first.2 result credible)

theorem Obeys.map {post : α → contract.Ghost → Prop}
    {post' : β → contract.Ghost → Prop} {program : Program signature α}
    {f : α → β} {ghost : contract.Ghost}
    (obeys : contract.Obeys role post program ghost)
    (mapped : ∀ value ghost, post value ghost → post' (f value) ghost) :
    contract.Obeys role post' (f <$> program) ghost := by
  rw [map_eq_pure_bind]
  exact obeys.bind mapped

/-- A program of operations that are always allowed and that only move the
ghost state along `keeps`. -/
theorem Obeys.of_yields {quiet : signature.Operation → Prop}
    {keeps : contract.Ghost → contract.Ghost → Prop} {post : α → Prop}
    {program : Program signature α} {ghost start : contract.Ghost}
    (trans : ∀ {first second third}, keeps first second →
      keeps second third → keeps first third)
    (allowed : ∀ operation ghost, quiet operation →
      contract.Allowed role ghost operation)
    (kept : ∀ operation ghost result, quiet operation →
      keeps ghost (contract.next ghost operation result))
    (yields : program.Yields quiet post) (before : keeps start ghost) :
    contract.Obeys role (fun value ghost => post value ∧ keeps start ghost)
      program ghost := by
  induction program generalizing ghost with
  | pure value => exact ⟨yields, before⟩
  | perform operation next induction =>
      refine ⟨allowed operation ghost yields.1, ?_⟩
      intro result _
      exact induction result (yields.2 result)
        (trans before (kept operation ghost result yields.1))

/-- A program of operations that do not move the ghost state where it is. -/
theorem Obeys.of_still {quiet : signature.Operation → Prop} {post : α → Prop}
    {program : Program signature α} {ghost : contract.Ghost}
    (allowed : ∀ operation, quiet operation →
      contract.Allowed role ghost operation)
    (still : ∀ operation result, quiet operation →
      contract.next ghost operation result = ghost)
    (yields : program.Yields quiet post) :
    contract.Obeys role (fun value later => post value ∧ later = ghost)
      program ghost := by
  induction program with
  | pure value => exact ⟨yields, rfl⟩
  | perform operation next induction =>
      refine ⟨allowed operation yields.1, ?_⟩
      intro result _
      rw [still operation result yields.1]
      exact induction result (yields.2 result)

theorem Obeys.of_allowed {program : Program signature α}
    {ghost : contract.Ghost}
    (allowed : ∀ operation ghost, contract.Allowed role ghost operation) :
    contract.Obeys role (fun _ _ => True) program ghost := by
  induction program generalizing ghost with
  | pure value => exact trivial
  | perform operation next induction =>
      exact ⟨allowed operation ghost, fun result _ => induction result⟩

/-- Rule for a loop over a list: `invariant` speaks of the items that are still
to come. -/
theorem Obeys.forM {items : List ι} {body : ι → Program signature PUnit}
    {invariant : List ι → contract.Ghost → Prop} {ghost : contract.Ghost}
    (start : invariant items ghost)
    (step : ∀ item rest ghost, invariant (item :: rest) ghost →
      contract.Obeys role (fun _ ghost => invariant rest ghost)
        (body item) ghost) :
    contract.Obeys role (fun _ ghost => invariant [] ghost)
      (forM items body) ghost := by
  induction items generalizing ghost with
  | nil => exact start
  | cons item rest induction =>
      rw [List.forM_cons]
      exact (step item rest ghost start).bind fun _ _ held => induction held

/-- The ghost state of a call after a trace. -/
def ghost (contract : Contract signature) (caller : Nat) :
    List (Event signature) → contract.Ghost
  | [] => contract.initial
  | event :: trace =>
      if event.caller = caller then
        contract.next (contract.ghost caller trace) event.operation event.result
      else contract.ghost caller trace

@[simp] theorem ghost_self (caller : Nat) (operation : signature.Operation)
    (result : signature.Result operation) (trace : List (Event signature)) :
    contract.ghost caller (⟨caller, operation, result⟩ :: trace) =
      contract.next (contract.ghost caller trace) operation result := by
  simp [ghost]

theorem ghost_other {caller other : Nat} (distinct : other ≠ caller)
    (operation : signature.Operation) (result : signature.Result operation)
    (trace : List (Event signature)) :
    contract.ghost caller (⟨other, operation, result⟩ :: trace) =
      contract.ghost caller trace := by
  simp [ghost, distinct]

theorem ghost_of_silent {caller : Nat} {trace : List (Event signature)}
    (silent : ∀ event ∈ trace, event.caller ≠ caller) :
    contract.ghost caller trace = contract.initial := by
  induction trace with
  | nil => rfl
  | cons event trace induction =>
      rw [ghost, if_neg (silent event (List.mem_cons_self ..))]
      exact induction fun event member =>
        silent event (List.mem_cons_of_mem _ member)

/-- A view of the ghost states that respects their steps is the ghost state of
another contract. -/
theorem ghost_map {other : Contract signature}
    {view : contract.Ghost → other.Ghost}
    (initially : view contract.initial = other.initial)
    (steps : ∀ ghost operation result,
      view (contract.next ghost operation result) =
        other.next (view ghost) operation result) (caller : Nat)
    (trace : List (Event signature)) :
    view (contract.ghost caller trace) = other.ghost caller trace := by
  induction trace with
  | nil => exact initially
  | cons event trace induction =>
      rw [ghost, ghost]
      split
      · rw [steps, induction]
      · exact induction

theorem sum_ghost_cons {M : Type} [AddCommMonoid M]
    {measure : contract.Ghost → M} {event : Event signature}
    {trace : List (Event signature)} {amount : M} {bound : Nat}
    (inside : event.caller < bound)
    (added : measure (contract.next (contract.ghost event.caller trace)
      event.operation event.result) =
        measure (contract.ghost event.caller trace) + amount) :
    ∑ caller ∈ Finset.range bound,
        measure (contract.ghost caller (event :: trace)) =
      ∑ caller ∈ Finset.range bound, measure (contract.ghost caller trace) +
        amount := by
  have member := Finset.mem_range.mpr inside
  rw [← Finset.sum_erase_add _ _ member, ← Finset.sum_erase_add _ _ member,
    ghost_self, added, ← add_assoc]
  congr 2
  apply Finset.sum_congr rfl
  intro other others
  rw [ghost_other (Finset.ne_of_mem_erase others).symm]

end Contract

end Concurrent
