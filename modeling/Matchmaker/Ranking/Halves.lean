import Mathlib.Algebra.BigOperators.Group.List.Basic
import Mathlib.Algebra.GroupWithZero.Nat
import Matchmaker.Ranking.First

namespace Ranking

/-! Two halves of a list whose totals differ by little. -/

variable {α : Type} {f : α → Nat} {items : List α} {low high half : Nat}

/-- Deal the items out in turn, to one side and to the other. -/
def deal : List α → List α × List α
  | [] => ([], [])
  | [item] => ([item], [])
  | first :: second :: rest =>
      (first :: (deal rest).1, second :: (deal rest).2)

theorem deal_perm (items : List α) :
    ((deal items).1 ++ (deal items).2).Perm items := by
  induction items using deal.induct with
  | case1 => exact .refl _
  | case2 item => exact .refl _
  | case3 first second rest induction =>
      rw [deal, List.cons_append]
      exact (List.perm_middle.trans (induction.cons second)).cons first

theorem length_deal (even : items.length = 2 * half) :
    (deal items).1.length = half ∧ (deal items).2.length = half := by
  induction items using deal.induct generalizing half with
  | case1 =>
      simp only [List.length_nil] at even
      simp only [deal, List.length_nil]
      omega
  | case2 item =>
      simp only [List.length_singleton] at even
      omega
  | case3 first second rest induction =>
      simp only [List.length_cons] at even
      have shorter : rest.length = 2 * (half - 1) := by omega
      have lengths := induction shorter
      simp only [deal, List.length_cons]
      omega

/-- Each item dealt to the right is followed by one to the left that is no
smaller, so the left side lags by the spread of the items at most. -/
theorem sum_deal (sorted : items.Pairwise fun first second => f first ≤ f second)
    (even : items.length = 2 * half)
    (within : ∀ item ∈ items, low ≤ f item ∧ f item ≤ high) :
    ((deal items).1.map f).sum ≤ ((deal items).2.map f).sum ∧
      ((deal items).2.map f).sum ≤
        ((deal items).1.map f).sum + (high - low) := by
  induction items using deal.induct generalizing low half with
  | case1 => simp [deal]
  | case2 item =>
      simp only [List.length_singleton] at even
      omega
  | case3 first second rest induction =>
      obtain ⟨below, sorted'⟩ := List.pairwise_cons.mp sorted
      obtain ⟨below', sorted''⟩ := List.pairwise_cons.mp sorted'
      have ascends := below second (List.mem_cons_self ..)
      have bounds := within first (List.mem_cons_self ..)
      have bounds' := within second (.tail _ (List.mem_cons_self ..))
      have rising : ∀ item ∈ rest, f second ≤ f item ∧ f item ≤ high := by
        intro item member
        exact ⟨below' item member, (within item (.tail _ (.tail _ member))).2⟩
      have shorter : rest.length = 2 * (half - 1) := by
        simp only [List.length_cons] at even
        omega
      have sums := induction sorted'' shorter rising
      simp only [deal, List.map_cons, List.sum_cons]
      omega

theorem exists_halves (even : items.length = 2 * half)
    (within : ∀ item ∈ items, low ≤ f item ∧ f item ≤ high) :
    ∃ left right : List α, (left ++ right).Perm items ∧ left.length = half ∧
      right.length = half ∧ (left.map f).sum ≤ (right.map f).sum ∧
      (right.map f).sum ≤ (left.map f).sum + (high - low) := by
  have perm := sortBy_perm f items
  have total : Std.Total fun first second => f first ≤ f second :=
    ⟨fun first second => le_total (f first) (f second)⟩
  have trans : IsTrans α fun first second => f first ≤ f second :=
    ⟨fun _ _ _ => le_trans⟩
  have sorted := List.pairwise_insertionSort
    (fun first second => f first ≤ f second) items
  have even' : (sortBy f items).length = 2 * half := perm.length_eq.trans even
  obtain ⟨lengthLeft, lengthRight⟩ := length_deal even'
  obtain ⟨below, above⟩ := sum_deal sorted even' fun item member =>
    within item (perm.mem_iff.mp member)
  exact ⟨_, _, (deal_perm _).trans perm, lengthLeft, lengthRight, below, above⟩

end Ranking
