import Mathlib.Data.List.Forall2

namespace Concurrent

/-- The atomic operations of a machine, each with the type of the value it
hands back to its caller. -/
structure Signature where
  Operation : Type
  Result : Operation → Type

/-- A sequential program whose only effects are atomic operations: it either
has returned, or waits to perform one operation and continues with the result. -/
inductive Program (signature : Signature) (α : Type) where
  | pure (value : α)
  | perform (operation : signature.Operation)
      (next : signature.Result operation → Program signature α)

namespace Program

variable {signature : Signature}

def bind (program : Program signature α) (rest : α → Program signature β) :
    Program signature β :=
  match program with
  | .pure value => rest value
  | .perform operation next =>
      .perform operation fun result => (next result).bind rest

instance : Monad (Program signature) where
  pure := Program.pure
  bind := Program.bind

/-- The program that performs one operation and returns its result. -/
def request (operation : signature.Operation) :
    Program signature (signature.Result operation) :=
  .perform operation .pure

theorem pure_bind_eq (value : α) (rest : α → Program signature β) :
    (Pure.pure value : Program signature α) >>= rest = rest value := rfl

theorem perform_bind_eq (operation : signature.Operation)
    (next : signature.Result operation → Program signature α)
    (rest : α → Program signature β) :
    (Program.perform operation next) >>= rest =
      Program.perform operation fun result => next result >>= rest := rfl

private theorem bind_pure_eq (program : Program signature α) :
    program >>= Pure.pure = program := by
  induction program with
  | pure value => rfl
  | perform operation next induction =>
      rw [perform_bind_eq]
      congr 1
      funext result
      exact induction result

private theorem bind_assoc_eq (program : Program signature α)
    (middle : α → Program signature β) (rest : β → Program signature γ) :
    (program >>= middle) >>= rest =
      program >>= fun value => middle value >>= rest := by
  induction program with
  | pure value => rfl
  | perform operation next induction =>
      simp only [perform_bind_eq]
      congr 1
      funext result
      exact induction result

instance : LawfulMonad (Program signature) :=
  LawfulMonad.mk' (Program signature) bind_pure_eq pure_bind_eq bind_assoc_eq

/-- Whatever the operations answer, the program uses permitted ones only and
its value satisfies `post`. -/
def Yields (permitted : signature.Operation → Prop) (post : α → Prop) :
    Program signature α → Prop
  | .pure value => post value
  | .perform operation next =>
      permitted operation ∧ ∀ result, (next result).Yields permitted post

section Yields

variable {permitted : signature.Operation → Prop}

theorem yields_pure {post : α → Prop} {value : α} (holds : post value) :
    (Pure.pure value : Program signature α).Yields permitted post := holds

theorem yields_value (value : α) :
    (Pure.pure value : Program signature α).Yields permitted fun _ => True :=
  trivial

theorem yields_request {operation : signature.Operation}
    (allowed : permitted operation) :
    (request operation).Yields permitted fun _ => True :=
  ⟨allowed, fun _ => trivial⟩

theorem Yields.mono {post post' : α → Prop} {program : Program signature α}
    (yields : program.Yields permitted post)
    (weaken : ∀ value, post value → post' value) :
    program.Yields permitted post' := by
  induction program with
  | pure value => exact weaken value yields
  | perform operation next induction =>
      refine ⟨yields.1, ?_⟩
      intro result
      exact induction result (yields.2 result)

theorem Yields.permit {permitted' : signature.Operation → Prop}
    {post : α → Prop} {program : Program signature α}
    (yields : program.Yields permitted post)
    (weaken : ∀ operation, permitted operation → permitted' operation) :
    program.Yields permitted' post := by
  induction program with
  | pure value => exact yields
  | perform operation next induction =>
      refine ⟨weaken operation yields.1, ?_⟩
      intro result
      exact induction result (yields.2 result)

theorem Yields.both {post post' : α → Prop} {program : Program signature α}
    (first : program.Yields permitted post)
    (second : program.Yields permitted post') :
    program.Yields permitted fun value => post value ∧ post' value := by
  induction program with
  | pure value => exact ⟨first, second⟩
  | perform operation next induction =>
      refine ⟨first.1, ?_⟩
      intro result
      exact induction result (first.2 result) (second.2 result)

theorem Yields.bind {post : α → Prop} {post' : β → Prop}
    {program : Program signature α} {rest : α → Program signature β}
    (first : program.Yields permitted post)
    (second : ∀ value, post value → (rest value).Yields permitted post') :
    (program >>= rest).Yields permitted post' := by
  induction program with
  | pure value => exact second value first
  | perform operation next induction =>
      refine ⟨first.1, ?_⟩
      intro result
      exact induction result (first.2 result)

theorem Yields.forM {body : ι → Program signature PUnit}
    (each : ∀ item, (body item).Yields permitted fun _ => True)
    (items : List ι) :
    (ForM.forM items body).Yields permitted fun _ => True := by
  induction items with
  | nil => exact trivial
  | cons item rest induction =>
      rw [List.forM_cons]
      exact (each item).bind fun _ _ => induction

theorem Yields.mapM {relation : ι → α → Prop}
    {body : ι → Program signature α}
    (each : ∀ item, (body item).Yields permitted (relation item))
    (items : List ι) :
    (items.mapM body).Yields permitted (List.Forall₂ relation items) := by
  induction items with
  | nil => exact .nil
  | cons item rest induction =>
      rw [List.mapM_cons]
      apply (each item).bind
      intro value related
      apply induction.bind
      intro values matching
      exact .cons related matching

end Yields

def returned? : Program signature α → Option α
  | .pure value => some value
  | .perform _ _ => none

end Program

end Concurrent
