import Mathlib.Algebra.BigOperators.Group.List.Basic
import Mathlib.Algebra.GroupWithZero.Nat
import Matchmaker.Concurrent.Pool

namespace Concurrent

/-! How many operations a program performs, by what the operations hand it. -/

variable {signature : Signature}

/-- The program never runs out of credit: an operation costs one, and what it
hands back may be worth some. -/
def Costs
    (worth : (operation : signature.Operation) →
      signature.Result operation → Nat)
    (post : α → Prop) : Program signature α → Nat → Prop
  | .pure value, _ => post value
  | .perform operation next, credit =>
      ∃ left, credit = left + 1 ∧
        ∀ result, Costs worth post (next result) (left + worth operation result)

section Costs

variable {worth : (operation : signature.Operation) →
    signature.Result operation → Nat} {post : α → Prop}

theorem costs_pure {value : α} (holds : post value) (credit : Nat) :
    Costs worth post (pure value : Program signature α) credit := holds

theorem Costs.mono {post' : α → Prop} {program : Program signature α}
    {credit credit' : Nat} (costs : Costs worth post program credit)
    (more : credit ≤ credit') (weaken : ∀ value, post value → post' value) :
    Costs worth post' program credit' := by
  induction program generalizing credit credit' with
  | pure value => exact weaken value costs
  | perform operation next induction =>
      obtain ⟨left, rfl, rest⟩ := costs
      refine ⟨credit' - 1, by omega, ?_⟩
      intro result
      exact induction result (rest result) (by omega)

theorem Costs.spare {program : Program signature α} {credit credit' : Nat}
    (costs : Costs worth post program credit) (more : credit ≤ credit') :
    Costs worth post program credit' :=
  costs.mono more fun _ holds => holds

theorem Costs.bind {post' : β → Prop} {program : Program signature α}
    {rest : α → Program signature β} {credit credit' : Nat}
    (first : Costs worth post program credit)
    (second : ∀ value, post value → Costs worth post' (rest value) credit') :
    Costs worth post' (program >>= rest) (credit + credit') := by
  induction program generalizing credit with
  | pure value => exact (second value first).spare (Nat.le_add_left ..)
  | perform operation next induction =>
      obtain ⟨left, rfl, after⟩ := first
      refine ⟨left + credit', by omega, ?_⟩
      intro result
      apply (induction result (after result)).spare
      omega

theorem Costs.bind_le {post' : β → Prop} {program : Program signature α}
    {rest : α → Program signature β} {credit total : Nat}
    (first : Costs worth post program credit) (enough : credit ≤ total)
    (second : ∀ value, post value →
      Costs worth post' (rest value) (total - credit)) :
    Costs worth post' (program >>= rest) total :=
  (first.bind second).spare (by omega)

theorem Costs.bind_pure {post' : β → Prop} {program : Program signature α}
    {f : α → β} {credit : Nat} (costs : Costs worth post program credit)
    (mapped : ∀ value, post value → post' (f value)) :
    Costs worth post' (program >>= fun value => pure (f value)) credit :=
  costs.bind fun value holds => costs_pure (mapped value holds) 0

theorem Costs.map {post' : β → Prop} {program : Program signature α}
    {f : α → β} {credit : Nat} (costs : Costs worth post program credit)
    (mapped : ∀ value, post value → post' (f value)) :
    Costs worth post' (f <$> program) credit := by
  rw [map_eq_pure_bind]
  exact costs.bind_pure mapped

theorem costs_request (operation : signature.Operation) :
    Costs worth (fun _ => True) (Program.request operation) 1 :=
  ⟨0, rfl, fun _ => trivial⟩

theorem costs_request_bind {operation : signature.Operation}
    {rest : signature.Result operation → Program signature α} {credit : Nat}
    (after : ∀ result, Costs worth post (rest result)
      (credit + worth operation result)) :
    Costs worth post (Program.request operation >>= rest) (credit + 1) :=
  ⟨credit, rfl, after⟩

theorem Costs.forM {body : ι → Program signature PUnit} {each : Nat}
    (costs : ∀ item, Costs worth (fun _ => True) (body item) each)
    (items : List ι) :
    Costs worth (fun _ => True) (ForM.forM items body)
      (items.length * each) := by
  induction items with
  | nil => exact trivial
  | cons item rest induction =>
      rw [List.forM_cons, List.length_cons, Nat.succ_mul,
        Nat.add_comm (rest.length * each)]
      exact (costs item).bind fun _ _ => induction

theorem Costs.mapM {body : ι → Program signature α} {each : Nat}
    (costs : ∀ item, Costs worth (fun _ => True) (body item) each)
    (items : List ι) :
    Costs worth (fun values => values.length = items.length)
      (items.mapM body) (items.length * each) := by
  induction items with
  | nil => rfl
  | cons item rest induction =>
      rw [List.mapM_cons, List.length_cons, Nat.succ_mul,
        Nat.add_comm (rest.length * each)]
      apply (costs item).bind
      intro value _
      apply induction.bind_pure
      intro values same
      rw [List.length_cons, same]

end Costs

/-- What a call has performed, and what it was handed. -/
structure Spent where
  made : Nat
  met : Nat
deriving DecidableEq

/-- A call performs an operation only while its allowance lasts: a fixed part,
and a rate for what it was handed. -/
@[reducible] def budget (signature : Signature)
    (worth : (operation : signature.Operation) →
      signature.Result operation → Nat) : Contract signature where
  Role := Nat × Nat
  Ghost := Spent
  initial := ⟨0, 0⟩
  next := fun spent operation result =>
    ⟨spent.made + 1, spent.met + worth operation result⟩
  Allowed := fun allowance spent _ =>
    spent.made < allowance.1 + allowance.2 * spent.met
  Credible := fun _ _ => True

/-- What a call may still perform. -/
theorem Costs.obeys {worth : (operation : signature.Operation) →
      signature.Result operation → Nat} {rate : Nat} {post : α → Prop}
    {program : Program signature α} {credit fixed : Nat} {spent : Spent}
    (costs : Costs (fun operation result => rate * worth operation result)
      post program credit)
    (afforded : spent.made + credit ≤ fixed + rate * spent.met) :
    (budget signature worth).Obeys (fixed, rate)
      (fun value later => post value ∧
        later.made ≤ fixed + rate * later.met) program spent := by
  induction program generalizing credit spent with
  | pure value => exact ⟨costs, by omega⟩
  | perform operation next induction =>
      obtain ⟨left, rfl, rest⟩ := costs
      refine ⟨?_, ?_⟩
      · show spent.made < fixed + rate * spent.met
        omega
      · intro result _
        apply induction result (rest result)
        show spent.made + 1 + (left + rate * worth operation result) ≤
          fixed + rate * (spent.met + worth operation result)
        rw [Nat.mul_add]
        omega

/-- How many operations a call has performed. -/
def performedBy (caller : Nat) (trace : List (Event signature)) : Nat :=
  trace.countP fun event => event.caller = caller

/-- What the operations of a call have handed it altogether. -/
def metBy (worth : (operation : signature.Operation) →
      signature.Result operation → Nat) (caller : Nat) :
    List (Event signature) → Nat
  | [] => 0
  | event :: trace =>
      metBy worth caller trace +
        if event.caller = caller then worth event.operation event.result else 0

theorem budget_ghost {worth : (operation : signature.Operation) →
      signature.Result operation → Nat} (caller : Nat)
    (trace : List (Event signature)) :
    (budget signature worth).ghost caller trace =
      ⟨performedBy caller trace, metBy worth caller trace⟩ := by
  induction trace with
  | nil => rfl
  | cons event trace induction =>
      rw [Contract.ghost, performedBy, List.countP_cons, metBy, induction]
      split <;> simp_all [performedBy]

end Concurrent
