import Mathlib.Order.BooleanAlgebra.Set

namespace Concurrent

/-! A wake signal with one permit, for tasks that wait for it one after the
other. The signal itself is a parameter: it is tokio's `Notify`, and what is
relied on is what is documented of it. -/

/-- A task has one `notified()` future at a time, and its number stands for
it. -/
class Notify (Signal : Type) where
  new : Signal
  notifyOne : Signal → Signal
  /-- Whether the future completes; `queued` says that it was polled before. -/
  poll : Signal → (task : Nat) → (queued : Bool) → Bool × Signal
  drop : Signal → (task : Nat) → Signal

/-- How matters stand with a signal: whether it holds the permit, who is in
its queue, and who of them was notified and has not found out yet. -/
@[ext] structure Standing where
  permit : Prop
  queue : Set Nat
  notified : Set Nat
  within : notified ⊆ queue

namespace Standing

def empty : Standing where
  permit := False
  queue := ∅
  notified := ∅
  within := Set.empty_subset ∅

variable (standing : Standing) (task : Nat)

def store : Standing := { standing with permit := True }

def take : Standing := { standing with permit := False }

def wake (inside : task ∈ standing.queue) : Standing :=
  { standing with
    notified := insert task standing.notified
    within := Set.insert_subset inside standing.within }

def join : Standing :=
  { standing with
    queue := insert task standing.queue
    within := standing.within.trans (Set.subset_insert _ _) }

def leave : Standing :=
  { standing with
    queue := standing.queue \ {task}
    notified := standing.notified \ {task}
    within := Set.sdiff_subset_sdiff_left standing.within }

/-- The task finds a notification when it polls the next time. -/
def Due : Prop :=
  task ∈ standing.notified ∨ standing.permit ∧ task ∉ standing.queue

end Standing

namespace Notify

/-- The documented behaviour of a signal, in terms of how matters stand. To
drop a future that was notified may hand its notification on. -/
structure Documented {Signal : Type} [Notify Signal]
    (view : Signal → Standing) : Prop where
  new : view new = .empty
  -- If tasks are waiting, one of them is notified;
  wakes : ∀ {signal},
    ((view signal).queue \ (view signal).notified).Nonempty →
    ∃ task, ∃ inside : task ∈ (view signal).queue,
      view (notifyOne signal) = (view signal).wake task inside
  -- otherwise the permit is stored, and there is one at most.
  stores : ∀ {signal}, (view signal).queue ⊆ (view signal).notified →
    view (notifyOne signal) = (view signal).store
  -- A future takes the permit and completes at once, or it queues up.
  takes : ∀ {signal task}, task ∉ (view signal).queue →
    (view signal).permit → (poll signal task false).1 = true ∧
      view (poll signal task false).2 = (view signal).take
  joins : ∀ {signal task}, task ∉ (view signal).queue →
    ¬ (view signal).permit → (poll signal task false).1 = false ∧
      view (poll signal task false).2 = (view signal).join task
  -- A future in the queue completes once it was notified.
  completes : ∀ {signal task}, task ∈ (view signal).notified →
    (poll signal task true).1 = true ∧
      view (poll signal task true).2 = (view signal).leave task
  pends : ∀ {signal task}, task ∈ (view signal).queue →
    task ∉ (view signal).notified → (poll signal task true).1 = false ∧
      view (poll signal task true).2 = view signal
  -- A future that is dropped loses its place.
  drops : ∀ {signal task}, task ∈ (view signal).queue →
    (view (drop signal task)).queue = (view signal).queue \ {task}

namespace Documented

variable {Signal : Type} [Notify Signal] {view : Signal → Standing}
  {signal : Signal} {task other : Nat} {queued : Bool}

theorem notifyOne_cases (documented : Documented view) (signal : Signal) :
    (∃ task, ∃ inside : task ∈ (view signal).queue,
      view (notifyOne signal) = (view signal).wake task inside) ∨
    (view signal).queue ⊆ (view signal).notified ∧
      view (notifyOne signal) = (view signal).store := by
  by_cases waiting :
      ((view signal).queue \ (view signal).notified).Nonempty
  · exact .inl (documented.wakes waiting)
  · have none := not_not.mp (Set.sdiff_nonempty.not.mp waiting)
    exact .inr ⟨none, documented.stores none⟩

theorem queue_notifyOne (documented : Documented view) (signal : Signal) :
    (view (notifyOne signal)).queue = (view signal).queue := by
  rcases documented.notifyOne_cases signal with
    ⟨task, inside, woken⟩ | ⟨_, stored⟩
  · rw [woken]
    rfl
  · rw [stored]
    rfl

theorem due_of_due (documented : Documented view)
    (due : (view signal).Due task) : (view (notifyOne signal)).Due task := by
  rcases documented.notifyOne_cases signal with
    ⟨woken, inside, woke⟩ | ⟨_, stored⟩
  · rw [woke]
    exact due.imp (Set.mem_insert_of_mem woken) id
  · rw [stored]
    exact due.imp id fun absent => ⟨trivial, absent.2⟩

/-- Whoever is notified, somebody is due. -/
theorem due_notifyOne (documented : Documented view) (signal : Signal) :
    (∃ task ∈ (view signal).queue, (view (notifyOne signal)).Due task) ∨
      ∀ task, (view (notifyOne signal)).Due task := by
  rcases documented.notifyOne_cases signal with
    ⟨woken, inside, woke⟩ | ⟨told, stored⟩
  · rw [woke]
    exact .inl ⟨woken, inside, .inl (Set.mem_insert woken _)⟩
  · rw [stored]
    rcases (view signal).queue.eq_empty_or_nonempty with none | some
    · right
      intro task
      refine .inr ⟨trivial, ?_⟩
      show task ∉ (view signal).queue
      rw [none]
      exact Set.notMem_empty task
    · obtain ⟨task, inside⟩ := some
      exact .inl ⟨task, inside, .inl (told inside)⟩

theorem poll_of_due (documented : Documented view)
    (due : (view signal).Due task)
    (seated : task ∈ (view signal).queue ↔ queued = true) :
    (poll signal task queued).1 = true := by
  rcases due with notified | ⟨permit, absent⟩
  · rw [seated.mp ((view signal).within notified)]
    exact (documented.completes notified).1
  · rw [Bool.eq_false_iff.mpr fun queued => absent (seated.mpr queued)]
    exact (documented.takes absent permit).1

/-- A poll that succeeds takes the task out of the queue. -/
theorem poll_ready (documented : Documented view)
    (seated : task ∈ (view signal).queue ↔ queued = true)
    (ready : (poll signal task queued).1 = true) :
    (view (poll signal task queued).2).queue =
      (view signal).queue \ {task} := by
  cases queued with
  | true =>
      by_cases notified : task ∈ (view signal).notified
      · rw [(documented.completes notified).2]
        rfl
      · have pending := documented.pends (seated.mpr rfl) notified
        cases ready.symm.trans pending.1
  | false =>
      have absent := fun inside => Bool.false_ne_true (seated.mp inside)
      by_cases permit : (view signal).permit
      · rw [(documented.takes absent permit).2]
        exact (Set.sdiff_singleton_eq_self absent).symm
      · have pending := documented.joins absent permit
        cases ready.symm.trans pending.1

/-- A poll that does not leaves the task in the queue, and nobody else misses
a notification for it. -/
theorem poll_pending (documented : Documented view)
    (seated : task ∈ (view signal).queue ↔ queued = true)
    (pending : (poll signal task queued).1 = false) :
    (view (poll signal task queued).2).queue =
        insert task (view signal).queue ∧
      ∀ other, (view signal).Due other →
        (view (poll signal task queued).2).Due other := by
  cases queued with
  | true =>
      have inside := seated.mpr rfl
      by_cases notified : task ∈ (view signal).notified
      · have ready := documented.completes notified
        cases pending.symm.trans ready.1
      · rw [(documented.pends inside notified).2]
        exact ⟨(Set.insert_eq_of_mem inside).symm, fun _ due => due⟩
  | false =>
      have absent := fun inside => Bool.false_ne_true (seated.mp inside)
      by_cases permit : (view signal).permit
      · have ready := documented.takes absent permit
        cases pending.symm.trans ready.1
      · rw [(documented.joins absent permit).2]
        refine ⟨rfl, fun other due => ?_⟩
        exact .inl (due.resolve_right fun holds => permit holds.1)

end Documented

end Notify

/-- A signal that notifies the task that waits longest: one of those that do
what is documented. -/
structure FirstWaiting where
  permit : Bool
  queue : List Nat
  notified : List Nat
  within : notified ⊆ queue
deriving DecidableEq

namespace FirstWaiting

def notifyOne (signal : FirstWaiting) : FirstWaiting :=
  match found : signal.queue.find? (· ∉ signal.notified) with
  | none => { signal with permit := true }
  | some task =>
      { signal with
        notified := task :: signal.notified
        within := List.cons_subset.mpr
          ⟨List.mem_of_find?_eq_some found, signal.within⟩ }

def leave (signal : FirstWaiting) (task : Nat) : FirstWaiting :=
  { signal with
    queue := signal.queue.filter (· ≠ task)
    notified := signal.notified.filter (· ≠ task)
    within := List.filter_subset _ signal.within }

def poll (signal : FirstWaiting) (task : Nat) (queued : Bool) :
    Bool × FirstWaiting :=
  if queued then
    if task ∈ signal.notified then (true, signal.leave task)
    else (false, signal)
  else if signal.permit then (true, { signal with permit := false })
  else
    (false, { signal with
      queue := signal.queue ++ [task]
      within := List.Subset.trans signal.within
        (List.subset_append_left _ _) })

def drop (signal : FirstWaiting) (task : Nat) : FirstWaiting :=
  if task ∈ signal.notified then (signal.leave task).notifyOne
  else signal.leave task

instance : Notify FirstWaiting where
  new := ⟨false, [], [], List.nil_subset []⟩
  notifyOne
  poll
  drop

def standing (signal : FirstWaiting) : Standing where
  permit := signal.permit = true
  queue := {task | task ∈ signal.queue}
  notified := {task | task ∈ signal.notified}
  within := signal.within

theorem standing_leave (signal : FirstWaiting) (task : Nat) :
    (signal.leave task).standing = signal.standing.leave task := by
  apply Standing.ext
  · rfl
  · ext other
    simp [leave, standing, Standing.leave]
  · ext other
    simp [leave, standing, Standing.leave]

theorem queue_notifyOne (signal : FirstWaiting) :
    signal.notifyOne.queue = signal.queue := by
  unfold notifyOne
  split <;> rfl

theorem standing_notifyOne {signal : FirstWaiting} {task : Nat}
    (found : signal.queue.find? (· ∉ signal.notified) = some task) :
    signal.notifyOne.standing =
      signal.standing.wake task (List.mem_of_find?_eq_some found) := by
  unfold notifyOne
  split
  · rename_i none
    cases found.symm.trans none
  · rename_i other first
    cases found.symm.trans first
    refine Standing.ext rfl rfl ?_
    ext other
    exact List.mem_cons

theorem documented : Notify.Documented standing where
  new := by
    refine Standing.ext (propext ⟨nofun, nofun⟩) ?_ ?_
    · ext task
      exact ⟨nofun, nofun⟩
    · ext task
      exact ⟨nofun, nofun⟩
  wakes := by
    intro signal waiting
    obtain ⟨waiter, inside, unaware⟩ := waiting
    change waiter ∉ signal.notified at unaware
    cases found : signal.queue.find? (· ∉ signal.notified) with
    | none =>
        have told := List.find?_eq_none.mp found waiter inside
        exact absurd (decide_eq_true unaware) told
    | some task => exact ⟨task, _, standing_notifyOne found⟩
  stores := by
    intro signal told
    have found : signal.queue.find? (· ∉ signal.notified) = none := by
      apply List.find?_eq_none.mpr
      intro task inside unaware
      exact of_decide_eq_true unaware (told inside)
    show signal.notifyOne.standing = _
    unfold notifyOne
    split
    · exact Standing.ext (propext ⟨fun _ => trivial, fun _ => rfl⟩) rfl rfl
    · rename_i task first
      cases found.symm.trans first
  takes := by
    intro signal task absent permit
    change signal.permit = true at permit
    show (signal.poll task false).1 = true ∧
      (signal.poll task false).2.standing = _
    rw [poll, if_neg Bool.false_ne_true, if_pos permit]
    exact ⟨rfl, Standing.ext (propext ⟨nofun, nofun⟩) rfl rfl⟩
  joins := by
    intro signal task absent spent
    change ¬ signal.permit = true at spent
    show (signal.poll task false).1 = false ∧
      (signal.poll task false).2.standing = _
    rw [poll, if_neg Bool.false_ne_true, if_neg spent]
    refine ⟨rfl, Standing.ext rfl ?_ rfl⟩
    ext other
    simp [standing, Standing.join, or_comm]
  completes := by
    intro signal task notified
    change task ∈ signal.notified at notified
    show (signal.poll task true).1 = true ∧
      (signal.poll task true).2.standing = _
    rw [poll, if_pos rfl, if_pos notified]
    exact ⟨rfl, signal.standing_leave task⟩
  pends := by
    intro signal task inside unaware
    change task ∉ signal.notified at unaware
    show (signal.poll task true).1 = false ∧
      (signal.poll task true).2.standing = _
    rw [poll, if_pos rfl, if_neg unaware]
    exact ⟨rfl, rfl⟩
  drops := by
    intro signal task inside
    have left : (signal.drop task).queue = signal.queue.filter (· ≠ task) := by
      unfold drop
      split
      · exact queue_notifyOne (signal.leave task)
      · rfl
    ext other
    show other ∈ (signal.drop task).queue ↔ _
    rw [left, List.mem_filter, decide_eq_true_eq]
    rfl

end FirstWaiting

end Concurrent
