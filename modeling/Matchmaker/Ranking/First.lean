import Mathlib.Data.List.Nodup
import Mathlib.Data.List.Sort
import Mathlib.Data.Set.Function

namespace Ranking

/-! The first few items of a list in the order of a key. -/

variable {α κ : Type} [LinearOrder κ] {key : α → κ} {items : List α}

def sortBy (key : α → κ) (items : List α) : List α :=
  items.insertionSort fun first second => key first ≤ key second

def firstBy (key : α → κ) (count : Nat) (items : List α) : List α :=
  (sortBy key items).take count

theorem sortBy_perm (key : α → κ) (items : List α) :
    (sortBy key items).Perm items :=
  List.perm_insertionSort _ _

theorem sortBy_increasing (distinct : items.Nodup)
    (injective : Set.InjOn key {item | item ∈ items}) :
    (sortBy key items).Pairwise fun first second => key first < key second := by
  have perm := sortBy_perm key items
  have total : Std.Total fun first second => key first ≤ key second :=
    ⟨fun first second => le_total (key first) (key second)⟩
  have trans : IsTrans α fun first second => key first ≤ key second :=
    ⟨fun _ _ _ => le_trans⟩
  have sorted := List.pairwise_insertionSort
    (fun first second => key first ≤ key second) items
  apply (sorted.and (perm.nodup_iff.mpr distinct)).imp_of_mem
  intro first second member member' found
  obtain ⟨below, different⟩ := found
  apply lt_of_le_of_ne below
  intro same
  exact different (injective (perm.mem_iff.mp member)
    (perm.mem_iff.mp member') same)

theorem eq_sortBy {sorted : List α} (perm : sorted.Perm items)
    (increasing : sorted.Pairwise fun first second => key first < key second) :
    sorted = sortBy key items := by
  have keys : (sorted.map key).Nodup :=
    List.pairwise_map.mpr (increasing.imp ne_of_lt)
  have injective : Set.InjOn key {item | item ∈ items} := by
    intro first member second member' same
    exact List.inj_on_of_nodup_map keys (perm.mem_iff.mpr member)
      (perm.mem_iff.mpr member') same
  refine List.Perm.eq_of_pairwise ?_ increasing
    (sortBy_increasing (perm.nodup_iff.mp keys.of_map) injective)
    (perm.trans (sortBy_perm key items).symm)
  intro first second _ _ below above
  exact absurd below (not_lt_of_gt above)

theorem sortBy_sublist [DecidableEq α] {part : List α} (distinct : items.Nodup)
    (injective : Set.InjOn key {item | item ∈ items})
    (distinctPart : part.Nodup) (within : part ⊆ items) :
    (sortBy key part).Sublist (sortBy key items) := by
  have sorted := sortBy_perm key items
  have increasing := sortBy_increasing distinct injective
  have same : (sortBy key items).filter (· ∈ part) = sortBy key part := by
    apply eq_sortBy
    · apply (List.perm_ext_iff_of_nodup
        ((sorted.nodup_iff.mpr distinct).filter _) distinctPart).mpr
      intro item
      rw [List.mem_filter, sorted.mem_iff, decide_eq_true_iff]
      exact and_iff_right_of_imp (within ·)
    · exact increasing.filter _
  rw [← same]
  exact List.filter_sublist

theorem mem_take_iff (increasing :
      items.Pairwise fun first second => key first < key second)
    {count : Nat} {item : α} :
    item ∈ items.take count ↔
      item ∈ items ∧ items.countP (key · < key item) < count := by
  induction items generalizing count with
  | nil => simp
  | cons first rest induction =>
      obtain ⟨least, increasing⟩ := List.pairwise_cons.mp increasing
      cases count with
      | zero => simp
      | succ count =>
          rw [List.take_succ_cons, List.mem_cons, List.mem_cons,
            induction increasing, List.countP_cons]
          by_cases same : item = first
          · subst same
            have none : rest.countP (key · < key item) = 0 := by
              rw [List.countP_eq_zero]
              intro other member below
              exact absurd (of_decide_eq_true below)
                (not_lt_of_gt (least other member))
            simp [none]
          · constructor
            · rintro (here | ⟨member, below⟩)
              · exact absurd here same
              · simp only [least item member, decide_true, ↓reduceIte]
                exact ⟨.inr member, by omega⟩
            · rintro ⟨here | member, below⟩
              · exact absurd here same
              · simp only [least item member, decide_true, ↓reduceIte]
                  at below
                exact .inr ⟨member, by omega⟩

theorem mem_firstBy_iff (distinct : items.Nodup)
    (injective : Set.InjOn key {item | item ∈ items}) {count : Nat}
    {item : α} :
    item ∈ firstBy key count items ↔
      item ∈ items ∧ items.countP (key · < key item) < count := by
  have perm := sortBy_perm key items
  rw [firstBy, mem_take_iff (sortBy_increasing distinct injective),
    perm.mem_iff, perm.countP_eq]

theorem length_firstBy (count : Nat) :
    (firstBy key count items).length = min count items.length := by
  rw [firstBy, List.length_take, (sortBy_perm key items).length_eq]

theorem firstBy_subset (count : Nat) : firstBy key count items ⊆ items :=
  fun _ member => (sortBy_perm key items).mem_iff.mp (List.mem_of_mem_take member)

theorem nodup_firstBy (distinct : items.Nodup) (count : Nat) :
    (firstBy key count items).Nodup :=
  ((sortBy_perm key items).nodup_iff.mpr distinct).sublist
    (List.take_sublist ..)

theorem countP_firstBy_le (p : α → Bool) (count : Nat) :
    (firstBy key count items).countP p ≤ items.countP p := by
  rw [← (sortBy_perm key items).countP_eq]
  exact (List.take_sublist ..).countP_le

theorem firstBy_congr {items' : List α} (perm : items.Perm items')
    (distinct : items.Nodup) (injective : Set.InjOn key {item | item ∈ items})
    (count : Nat) : firstBy key count items = firstBy key count items' := by
  rw [firstBy, firstBy, eq_sortBy ((sortBy_perm key items).trans perm)
    (sortBy_increasing distinct injective)]

theorem firstBy_map {f : α → β} {key' : β → κ}
    (keys : ∀ item, key' (f item) = key item) (count : Nat) :
    (firstBy key count items).map f = firstBy key' count (items.map f) := by
  rw [firstBy, firstBy, List.map_take, sortBy, sortBy]
  congr 1
  apply List.map_insertionSort _ _ f items
  intro first _ second _
  rw [keys, keys]

theorem firstBy_perm {count : Nat} (few : items.length ≤ count) :
    (firstBy key count items).Perm items := by
  rw [firstBy, List.take_of_length_le ((sortBy_perm key items).length_eq ▸ few)]
  exact sortBy_perm key items

/-- Taking a part of the items first makes no difference exactly when all of
the first items are in that part. -/
theorem mem_firstBy_iff_of_part {part : List α} {count : Nat}
    (distinct : items.Nodup) (injective : Set.InjOn key {item | item ∈ items})
    (distinctPart : part.Nodup) (within : part ⊆ items)
    (counts : ∀ p : α → Bool, part.countP p ≤ items.countP p) :
    (∀ item, item ∈ firstBy key count part ↔
        item ∈ firstBy key count items) ↔
      firstBy key count items ⊆ part := by
  have injectivePart : Set.InjOn key {item | item ∈ part} :=
    injective.mono fun _ member => within member
  constructor
  · intro same item member
    exact firstBy_subset count ((same item).mpr member)
  · intro inside
    have first : firstBy key count items ⊆ firstBy key count part := by
      intro item member
      have rank := ((mem_firstBy_iff distinct injective).mp member).2
      exact (mem_firstBy_iff distinctPart injectivePart).mpr
        ⟨inside member, lt_of_le_of_lt (counts _) rank⟩
    have sub := List.subperm_of_subset (nodup_firstBy distinct count) first
    have length : (firstBy key count part).length ≤
        (firstBy key count items).length := by
      have fewer := counts fun _ => true
      simp only [List.countP_true] at fewer
      rw [length_firstBy, length_firstBy]
      omega
    exact fun item => (sub.perm_of_length_le length).mem_iff.symm

end Ranking
