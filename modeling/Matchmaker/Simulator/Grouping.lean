import Mathlib.Data.List.Nodup

namespace Grouping

/-! Values collected under keys, in the order in which the keys appear. -/

variable {κ α : Type} [DecidableEq κ]

def append : List (κ × List α) → κ → α → List (κ × List α)
  | [], key, value => [(key, [value])]
  | (first, values) :: rest, key, value =>
      if first = key then (first, values ++ [value]) :: rest
      else (first, values) :: append rest key value

/-- The values that the pairs give to a key. -/
def valuesOf (pairs : List (κ × α)) (key : κ) : List α :=
  (pairs.filter (·.1 = key)).map (·.2)

/-- Every key has one group, with all of its values. -/
structure Groups (pairs : List (κ × α)) (groups : List (κ × List α)) :
    Prop where
  keys : (groups.map (·.1)).Nodup
  covered : ∀ {key}, key ∈ pairs.map (·.1) → key ∈ groups.map (·.1)
  values : ∀ {key values}, (key, values) ∈ groups →
    values = valuesOf pairs key

section Append

variable {groups : List (κ × List α)} {key other : κ} {value : α}
  {values : List α}

theorem mem_keys_append :
    other ∈ (append groups key value).map (·.1) ↔
      other ∈ groups.map (·.1) ∨ other = key := by
  induction groups with
  | nil => simp [append]
  | cons first rest induction =>
      rw [append]
      split
      · rename_i same
        subst same
        simp only [List.map_cons, List.mem_cons]
        exact (or_iff_left_of_imp .inl).symm
      · rw [List.map_cons, List.map_cons, List.mem_cons, List.mem_cons,
          induction, or_assoc]

theorem nodup_keys_append (distinct : (groups.map (·.1)).Nodup) :
    ((append groups key value).map (·.1)).Nodup := by
  induction groups with
  | nil => exact List.nodup_singleton key
  | cons first rest induction =>
      obtain ⟨fresh, distinct⟩ := List.nodup_cons.mp distinct
      rw [append]
      split
      · exact List.nodup_cons.mpr ⟨fresh, distinct⟩
      · rename_i different
        refine List.nodup_cons.mpr ⟨?_, induction distinct⟩
        rw [mem_keys_append]
        exact not_or.mpr ⟨fresh, different⟩

theorem mem_append (distinct : (groups.map (·.1)).Nodup)
    (member : (other, values) ∈ append groups key value) :
    other ≠ key ∧ (other, values) ∈ groups ∨
      other = key ∧ ∃ earlier, values = earlier ++ [value] ∧
        ((key, earlier) ∈ groups ∨
          earlier = [] ∧ key ∉ groups.map (·.1)) := by
  induction groups with
  | nil =>
      cases List.mem_singleton.mp member
      exact .inr ⟨rfl, [], rfl, .inr ⟨rfl, List.not_mem_nil⟩⟩
  | cons first rest induction =>
      obtain ⟨fresh, distinct⟩ := List.nodup_cons.mp distinct
      rw [append] at member
      split at member
      · rename_i same
        subst same
        rcases List.mem_cons.mp member with here | later
        · cases here
          exact .inr ⟨rfl, first.2, rfl, .inl (List.mem_cons_self ..)⟩
        · refine .inl ⟨?_, List.mem_cons_of_mem _ later⟩
          rintro rfl
          exact fresh (List.mem_map.mpr ⟨_, later, rfl⟩)
      · rename_i different
        rcases List.mem_cons.mp member with here | later
        · cases here
          exact .inl ⟨different, List.mem_cons_self ..⟩
        · rcases induction distinct later with ⟨apart, kept⟩ |
            ⟨rfl, earlier, rfl, before⟩
          · exact .inl ⟨apart, List.mem_cons_of_mem _ kept⟩
          · refine .inr ⟨rfl, earlier, rfl, before.imp
              (List.mem_cons_of_mem _) (And.imp_right fun absent => ?_)⟩
            rw [List.map_cons, List.mem_cons, not_or]
            exact ⟨Ne.symm different, absent⟩

end Append

section Groups

variable {pairs : List (κ × α)} {groups : List (κ × List α)} {key : κ}
  {value : α}

theorem Groups.nil : Groups ([] : List (κ × α)) [] where
  keys := List.nodup_nil
  covered := fun member => member
  values := by
    intro key values member
    cases member

theorem valuesOf_of_not_mem (absent : key ∉ pairs.map (·.1)) :
    valuesOf pairs key = [] := by
  rw [valuesOf, List.map_eq_nil_iff, List.filter_eq_nil_iff]
  intro pair member same
  exact absent (List.mem_map.mpr ⟨pair, member, of_decide_eq_true same⟩)

theorem Groups.append (held : Groups pairs groups) (key : κ) (value : α) :
    Groups (pairs ++ [(key, value)]) (append groups key value) where
  keys := nodup_keys_append held.keys
  covered := by
    intro other member
    rw [List.map_append, List.mem_append] at member
    exact mem_keys_append.mpr
      (member.imp held.covered (List.mem_singleton.mp ·))
  values := by
    intro other values member
    rw [valuesOf, List.filter_append, List.map_append]
    rcases mem_append held.keys member with ⟨different, kept⟩ |
      ⟨rfl, earlier, rfl, before⟩
    · rw [held.values kept]
      simp [valuesOf, Ne.symm different]
    · have same : earlier = valuesOf pairs other := by
        rcases before with grouped | ⟨rfl, absent⟩
        · exact held.values grouped
        · exact (valuesOf_of_not_mem fun member =>
            absent (held.covered member)).symm
      rw [same]
      simp [valuesOf]

theorem length_valuesOf :
    (valuesOf pairs key).length = (pairs.map (·.1)).count key := by
  rw [valuesOf, List.length_map, List.count, List.countP_map,
    List.countP_eq_length_filter]
  rfl

theorem Groups.single (held : Groups pairs groups)
    (distinct : (pairs.map (·.1)).Nodup) {values : List α}
    (member : (key, values) ∈ groups) : values.length ≤ 1 := by
  rw [held.values member, length_valuesOf]
  exact List.nodup_iff_count_le_one.mp distinct key

end Groups

end Grouping
