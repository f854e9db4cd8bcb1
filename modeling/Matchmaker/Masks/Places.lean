import Mathlib.Data.Nat.Bitwise
import Mathlib.Algebra.BigOperators.Group.Finset.Basic
import Mathlib.Algebra.Order.Group.Nat

namespace Masks

/-! Numbers as sets of places, one for each bit that is set. -/

variable {width mask : Nat} {places : Finset Nat}

/-- The places below `width` whose bit is set. -/
def placesOf (width mask : Nat) : Finset Nat :=
  (Finset.range width).filter (mask.testBit ·)

def maskOf (width : Nat) (places : Finset Nat) : Nat :=
  @Nat.ofBits width fun i => decide (i.val ∈ places)

theorem mem_placesOf {place : Nat} :
    place ∈ placesOf width mask ↔ place < width ∧ mask.testBit place := by
  rw [placesOf, Finset.mem_filter, Finset.mem_range]

theorem placesOf_subset : placesOf width mask ⊆ Finset.range width :=
  Finset.filter_subset ..

theorem maskOf_lt : maskOf width places < 2 ^ width :=
  Nat.ofBits_lt_two_pow _

theorem placesOf_maskOf (within : places ⊆ Finset.range width) :
    placesOf width (maskOf width places) = places := by
  ext place
  rw [mem_placesOf]
  constructor
  · intro found
    obtain ⟨below, set⟩ := found
    rw [maskOf, Nat.testBit_ofBits_lt _ place below] at set
    exact of_decide_eq_true set
  · intro member
    have below := Finset.mem_range.mp (within member)
    refine ⟨below, ?_⟩
    rw [maskOf, Nat.testBit_ofBits_lt _ place below]
    exact decide_eq_true member

theorem compl_placesOf :
    Finset.range width \ placesOf width mask =
      (Finset.range width).filter fun place => mask.testBit place = false := by
  ext place
  simp only [Finset.mem_sdiff, Finset.mem_range, mem_placesOf,
    Finset.mem_filter]
  cases mask.testBit place <;> simp

theorem placesOf_eq_toFinset :
    placesOf width mask =
      ((List.range width).filter mask.testBit).toFinset := by
  ext place
  rw [mem_placesOf, List.mem_toFinset, List.mem_filter, List.mem_range]

theorem nodup_filter_range (p : Nat → Bool) :
    ((List.range width).filter p).Nodup :=
  List.nodup_range.filter _

theorem toFinset_filter_mem (within : places ⊆ Finset.range width) :
    ((List.range width).filter (· ∈ places)).toFinset = places := by
  ext place
  rw [List.mem_toFinset, List.mem_filter, List.mem_range, decide_eq_true_eq]
  exact and_iff_right_of_imp fun member => Finset.mem_range.mp (within member)

theorem card_placesOf :
    (placesOf width mask).card = (List.range width).countP mask.testBit := by
  rw [placesOf_eq_toFinset, List.toFinset_card_of_nodup (nodup_filter_range _),
    List.countP_eq_length_filter]

theorem sum_placesOf (f : Nat → Nat) :
    ∑ place ∈ placesOf width mask, f place =
      (((List.range width).filter mask.testBit).map f).sum := by
  rw [placesOf_eq_toFinset, List.sum_toFinset f (nodup_filter_range _)]

end Masks
