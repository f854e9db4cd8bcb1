import Mathlib.Data.List.Forall2

namespace Checking

/-! A list of checks, made one after the other until the first that fails. -/

variable {ε : Type} {α β : Type} {items : List α} {error : ε}

theorem bind_eq_ok_iff {first : Except ε α} {rest : α → Except ε β}
    {result : β} : first >>= rest = .ok result ↔
      ∃ value, first = .ok value ∧ rest value = .ok result := by
  cases first with
  | error failure =>
      exact ⟨nofun, nofun⟩
  | ok value =>
      constructor
      · intro succeeded
        exact ⟨value, rfl, succeeded⟩
      · rintro ⟨_, ⟨⟩, succeeded⟩
        exact succeeded

theorem bind_eq_error_iff {first : Except ε α} {rest : α → Except ε β} :
    first >>= rest = .error error ↔ first = .error error ∨
      ∃ value, first = .ok value ∧ rest value = .error error := by
  cases first with
  | error failure =>
      constructor
      · rintro ⟨⟩
        exact .inl rfl
      · rintro (⟨⟨⟩⟩ | ⟨_, ⟨⟩, _⟩)
        rfl
  | ok value =>
      constructor
      · intro failed
        exact .inr ⟨value, rfl, failed⟩
      · rintro (⟨⟨⟩⟩ | ⟨_, ⟨⟩, failed⟩)
        exact failed

theorem mapM_eq_ok_iff {f : α → Except ε β} {values : List β} :
    items.mapM f = .ok values ↔
      List.Forall₂ (fun item value => f item = .ok value) items values := by
  induction items generalizing values with
  | nil =>
      rw [List.mapM_nil, List.forall₂_nil_left_iff]
      constructor
      · rintro ⟨⟩
        rfl
      · rintro rfl
        rfl
  | cons item rest induction =>
      rw [List.mapM_cons, bind_eq_ok_iff, List.forall₂_cons_left_iff]
      apply exists_congr
      intro value
      rw [bind_eq_ok_iff]
      constructor
      · rintro ⟨passed, later, others, ⟨⟩⟩
        exact ⟨later, passed, induction.mp others, rfl⟩
      · rintro ⟨later, passed, others, rfl⟩
        exact ⟨passed, later, induction.mpr others, rfl⟩

/-- The checks up to one that fails: those before it have passed. -/
structure FirstFailure (items : List α) (f : α → Except ε β) (item : α)
    (error : ε) : Prop where
  split : ∃ before after, items = before ++ item :: after ∧
    ∀ earlier ∈ before, ∃ value, f earlier = .ok value
  failed : f item = .error error

theorem firstFailure_cons_iff {f : α → Except ε β} {item first : α}
    {rest : List α} :
    FirstFailure (first :: rest) f item error ↔
      item = first ∧ f first = .error error ∨
        (∃ value, f first = .ok value) ∧ FirstFailure rest f item error := by
  constructor
  · rintro ⟨⟨before, after, split, passed⟩, failed⟩
    cases before with
    | nil =>
        cases split
        exact .inl ⟨rfl, failed⟩
    | cons head before =>
        cases split
        exact .inr ⟨passed _ List.mem_cons_self, ⟨before, after, rfl,
          fun earlier member => passed earlier (List.mem_cons_of_mem _ member)⟩,
          failed⟩
  · rintro (⟨rfl, failed⟩ | ⟨here, ⟨before, after, rfl, passed⟩, failed⟩)
    · exact ⟨⟨[], rest, rfl, nofun⟩, failed⟩
    · refine ⟨⟨first :: before, after, rfl, ?_⟩, failed⟩
      intro earlier member
      rcases List.mem_cons.mp member with rfl | later
      · exact here
      · exact passed earlier later

theorem mapM_eq_error_iff {f : α → Except ε β} :
    items.mapM f = .error error ↔
      ∃ item, FirstFailure items f item error := by
  induction items with
  | nil =>
      rw [List.mapM_nil]
      refine ⟨nofun, ?_⟩
      rintro ⟨item, ⟨before, after, split, _⟩, _⟩
      exact absurd split (by simp)
  | cons first rest induction =>
      simp only [List.mapM_cons, bind_eq_error_iff, firstFailure_cons_iff,
        induction]
      constructor
      · rintro (failed | ⟨value, passed, ⟨item, later⟩ | ⟨_, _, ⟨⟩⟩⟩)
        · exact ⟨first, .inl ⟨rfl, failed⟩⟩
        · exact ⟨item, .inr ⟨⟨value, passed⟩, later⟩⟩
      · rintro ⟨item, ⟨rfl, failed⟩ | ⟨⟨value, passed⟩, later⟩⟩
        · exact .inl failed
        · exact .inr ⟨value, passed, .inl ⟨item, later⟩⟩

theorem forM_eq_mapM (items : List α) (f : α → Except ε PUnit) :
    items.forM f = items.mapM f >>= fun _ => pure () := by
  induction items with
  | nil => rfl
  | cons first rest induction =>
      show (f first >>= fun _ => rest.forM f) = _
      rw [List.mapM_cons, induction]
      simp only [bind_assoc, pure_bind]

theorem forM_eq_ok_iff {f : α → Except ε PUnit} :
    items.forM f = .ok () ↔ ∀ item ∈ items, f item = .ok () := by
  induction items with
  | nil => exact ⟨fun _ => nofun, fun _ => rfl⟩
  | cons first rest induction =>
      show (f first >>= fun _ => rest.forM f) = _ ↔ _
      rw [bind_eq_ok_iff, List.forall_mem_cons, induction]
      constructor
      · rintro ⟨⟨⟩, passed, later⟩
        exact ⟨passed, later⟩
      · rintro ⟨passed, later⟩
        exact ⟨(), passed, later⟩

theorem forM_eq_error_iff {f : α → Except ε PUnit} :
    items.forM f = .error error ↔
      ∃ item, FirstFailure items f item error := by
  rw [forM_eq_mapM, bind_eq_error_iff, mapM_eq_error_iff]
  apply or_iff_left
  rintro ⟨_, _, ⟨⟩⟩

end Checking
