import Mathlib.Data.List.Nodup
import Mathlib.Data.Set.Function
import Mathlib.Order.Defs.LinearOrder

namespace Ranking

/-! The least item of a list in the order of a key, the first one of equals. -/

variable {α κ : Type} [LinearOrder κ] {key : α → κ} {items : List α}

def leastFrom (key : α → κ) (first : α) (items : List α) : α :=
  items.foldl (fun best item => if key item < key best then item else best)
    first

theorem leastFrom_cons (first second : α) (rest : List α) :
    leastFrom key first (second :: rest) =
      leastFrom key (if key second < key first then second else first) rest :=
  rfl

theorem leastFrom_mem (first : α) :
    leastFrom key first items ∈ first :: items := by
  induction items generalizing first with
  | nil => exact List.mem_singleton_self first
  | cons second rest induction =>
      rw [leastFrom_cons]
      split
      · exact List.mem_cons_of_mem _ (induction second)
      · rcases List.mem_cons.mp (induction first) with same | member
        · rw [same]
          exact List.mem_cons_self ..
        · exact List.mem_cons_of_mem _ (List.mem_cons_of_mem _ member)

theorem leastFrom_le (first : α) :
    ∀ item ∈ first :: items, key (leastFrom key first items) ≤ key item := by
  induction items generalizing first with
  | nil =>
      intro item member
      rw [List.mem_singleton.mp member]
      exact le_refl _
  | cons second rest induction =>
      rw [leastFrom_cons]
      intro item member
      split
      · rename_i below
        rcases List.mem_cons.mp member with rfl | member
        · exact le_trans (induction second second (List.mem_cons_self ..))
            (le_of_lt below)
        · exact induction second item member
      · rename_i above
        rcases List.mem_cons.mp member with rfl | member
        · exact induction item item (List.mem_cons_self ..)
        · rcases List.mem_cons.mp member with rfl | member
          · exact le_trans (induction first first (List.mem_cons_self ..))
              (le_of_not_gt above)
          · exact induction first item (List.mem_cons_of_mem _ member)

theorem leastFrom_eq_first {first : α}
    (least : ∀ item ∈ items, key first ≤ key item) :
    leastFrom key first items = first := by
  induction items with
  | nil => rfl
  | cons second rest induction =>
      rw [leastFrom_cons, if_neg (not_lt_of_ge
        (least second (List.mem_cons_self ..)))]
      exact induction fun item member =>
        least item (List.mem_cons_of_mem _ member)

/-- An item of the list that no item precedes, if there are any. -/
def Least (key : α → κ) (items : List α) : Option α → Prop
  | none => items = []
  | some least => least ∈ items ∧ ∀ item ∈ items, key least ≤ key item

theorem Least.perm {items' : List α} {least : Option α}
    (holds : Least key items least) (perm : items.Perm items') :
    Least key items' least := by
  cases least with
  | none => exact List.nil_perm.mp ((show items = [] from holds) ▸ perm)
  | some least =>
      exact ⟨perm.mem_iff.mp holds.1,
        fun item member => holds.2 item (perm.mem_iff.mpr member)⟩

theorem Least.map {f : α → β} {key' : β → κ} {least : Option α}
    (keys : ∀ item, key' (f item) = key item)
    (holds : Least key items least) :
    Least key' (items.map f) (least.map f) := by
  cases least with
  | none => exact List.map_eq_nil_iff.mpr holds
  | some least =>
      refine ⟨List.mem_map_of_mem holds.1, ?_⟩
      intro item member
      obtain ⟨source, listed, rfl⟩ := List.mem_map.mp member
      rw [keys, keys]
      exact holds.2 source listed

theorem Least.unique {least least' : Option α}
    (injective : Set.InjOn key {item | item ∈ items})
    (holds : Least key items least) (holds' : Least key items least') :
    least = least' := by
  cases least with
  | none =>
      obtain rfl : items = [] := holds
      cases least' with
      | none => rfl
      | some other => cases holds'.1
  | some least =>
      cases least' with
      | none =>
          obtain rfl : items = [] := holds'
          cases holds.1
      | some other =>
          have same := le_antisymm (holds.2 other holds'.1)
            (holds'.2 least holds.1)
          rw [injective holds.1 holds'.1 same]

end Ranking
