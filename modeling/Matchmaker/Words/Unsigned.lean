import Mathlib.Algebra.Order.BigOperators.Group.List
import Mathlib.Algebra.Order.Ring.Nat

namespace Words

/-! Arithmetic on unsigned words that says when a result does not fit. -/

/-- The value, if a word of this width can hold it. -/
def fit? (width value : Nat) : Option Nat :=
  if value < 2 ^ width then some value else none

def add? (width left right : Nat) : Option Nat :=
  fit? width (left + right)

def mul? (width left right : Nat) : Option Nat :=
  fit? width (left * right)

def sub? (left right : Nat) : Option Nat :=
  if right ≤ left then some (left - right) else none

/-- The values are added one by one. -/
def sum? (width : Nat) (values : List Nat) : Option Nat :=
  values.foldlM (add? width) 0

theorem fit?_eq_some {width value : Nat} (small : value < 2 ^ width) :
    fit? width value = some value :=
  if_pos small

theorem sub?_eq_some {left right : Nat} (below : right ≤ left) :
    sub? left right = some (left - right) :=
  if_pos below

theorem foldlM_add?_eq_some {width total : Nat} {values : List Nat}
    (small : total + values.sum < 2 ^ width) :
    values.foldlM (add? width) total = some (total + values.sum) := by
  induction values generalizing total with
  | nil => rfl
  | cons value rest induction =>
      rw [List.sum_cons, ← Nat.add_assoc] at small ⊢
      have here : add? width total value = some (total + value) :=
        fit?_eq_some (Nat.lt_of_le_of_lt (Nat.le_add_right ..) small)
      rw [List.foldlM_cons, here]
      exact induction small

theorem sum?_eq_some {width : Nat} {values : List Nat}
    (small : values.sum < 2 ^ width) : sum? width values = some values.sum := by
  have room : 0 + values.sum < 2 ^ width := by rwa [Nat.zero_add]
  rw [sum?, foldlM_add?_eq_some room, Nat.zero_add]

theorem sum_lt {width limit : Nat} {values : List Nat}
    (bounded : ∀ value ∈ values, value ≤ limit)
    (room : values.length * limit < 2 ^ width) : values.sum < 2 ^ width :=
  Nat.lt_of_le_of_lt (List.sum_le_card_nsmul values limit bounded) room

end Words
