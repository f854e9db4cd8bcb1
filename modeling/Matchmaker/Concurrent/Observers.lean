import Matchmaker.Concurrent.Program
import Matchmaker.Concurrent.Reachability

namespace Concurrent

/-! Programs that look at a system, one sight after the other, while it goes on
stepping. -/

/-- What there is to be seen of a state. -/
structure Sights (State : Type) where
  signature : Signature
  look : State → (sight : signature.Operation) → signature.Result sight

/-- A look at the system that was begun in a certain state, and what is left of
it. -/
structure Watch {State : Type} (sights : Sights State)
    (Request Response : Type) where
  request : Request
  opened : State
  program : Program sights.signature Response

structure Watched {State : Type} (sights : Sights State)
    (Request Response : Type) where
  state : State
  watches : List (Watch sights Request Response)

inductive Observing (Action Request : Type)
  | move (action : Action)
  | visit (request : Request)
  | look (watch : Nat)

variable {State Action : Type} {sights : Sights State}
  {Request Response : Type}

namespace Watched

def look (watched : Watched sights Request Response) (watch : Nat) :
    Option (Watched sights Request Response) :=
  match watched.watches[watch]? with
  | some ⟨request, opened, .perform sight next⟩ =>
      some { watched with
        watches := watched.watches.set watch
          ⟨request, opened, next (sights.look watched.state sight)⟩ }
  | _ => none

def step (move : State → Action → Option State)
    (program : Request → Program sights.signature Response)
    (watched : Watched sights Request Response) :
    Observing Action Request → Option (Watched sights Request Response)
  | .move action =>
      (move watched.state action).map fun state => { watched with state }
  | .visit request =>
      some { watched with
        watches := watched.watches ++
          [⟨request, watched.state, program request⟩] }
  | .look watch => watched.look watch

def Permits (permitted : State → Action → Prop)
    (watched : Watched sights Request Response) :
    Observing Action Request → Prop
  | .move action => permitted watched.state action
  | _ => True

end Watched

/-- However the system moves on between the looks, the program returns a value
that is right about the state of its last look. -/
def Gathers (sights : Sights State) (later : State → State → Prop)
    (post : α → State → Prop) : Program sights.signature α → State → Prop
  | .pure value, state => post value state
  | .perform sight next, state =>
      ∀ state', later state state' →
        Gathers sights later post (next (sights.look state' sight)) state'

section Gathers

variable {later : State → State → Prop} {state : State}

/-- Rule for one look: all states seen before lead to the one looked at. -/
theorem gathers_look {sight : sights.signature.Operation}
    {rest : sights.signature.Result sight → Program sights.signature α}
    {post : α → State → Prop} {seen : List State}
    (trans : ∀ {first second third}, later first second →
      later second third → later first third)
    (before : ∀ earlier ∈ seen, later earlier state)
    (looked : ∀ state', (∀ earlier ∈ state :: seen, later earlier state') →
      Gathers sights later post (rest (sights.look state' sight)) state') :
    Gathers sights later post (Program.request sight >>= rest) state := by
  intro state' moved
  apply looked
  intro earlier member
  rcases List.mem_cons.mp member with rfl | older
  · exact moved
  · exact trans (before earlier older) moved

theorem Gathers.bind {post : α → State → Prop} {post' : β → State → Prop}
    {program : Program sights.signature α}
    {rest : α → Program sights.signature β}
    (first : Gathers sights later post program state)
    (second : ∀ value state, post value state →
      Gathers sights later post' (rest value) state) :
    Gathers sights later post' (program >>= rest) state := by
  induction program generalizing state with
  | pure value => exact second value state first
  | perform sight next induction =>
      intro state' moved
      exact induction _ (first state' moved)

theorem Gathers.map {post : α → State → Prop} {post' : β → State → Prop}
    {program : Program sights.signature α} {f : α → β}
    (gathers : Gathers sights later post program state)
    (mapped : ∀ value state, post value state → post' (f value) state) :
    Gathers sights later post' (f <$> program) state := by
  rw [map_eq_pure_bind]
  exact gathers.bind mapped

end Gathers

section Reach

variable {move : State → Action → Option State}
  {permitted : State → Action → Prop}
  {program : Request → Program sights.signature Response}
  {post : Request → State → Response → State → Prop}
  {start watched : Watched sights Request Response}

/-- From one state to another by permitted moves. -/
abbrev Leads (move : State → Action → Option State)
    (permitted : State → Action → Prop) (first second : State) : Prop :=
  Reachable move first permitted second

theorem Leads.trans {first second third : State}
    (before : Leads move permitted first second)
    (after : Leads move permitted second third) :
    Leads move permitted first third :=
  Reachable.append before after fun allowed => allowed

theorem Leads.next {first second third : State} {action : Action}
    (before : Leads move permitted first second)
    (allowed : permitted second action)
    (moved : move second action = some third) :
    Leads move permitted first third :=
  Reachable.step before allowed moved

/-- A look that was begun after the start and is under way. -/
structure Attends (move : State → Action → Option State)
    (permitted : State → Action → Prop)
    (post : Request → State → Response → State → Prop)
    (start now : State) (watch : Watch sights Request Response) : Prop where
  opened : Leads move permitted start watch.opened
  gathers : ∃ seen, Leads move permitted watch.opened seen ∧
    Leads move permitted seen now ∧
    Gathers sights (Leads move permitted) (post watch.request watch.opened)
      watch.program seen

theorem Attends.next {start now now' : State} {action : Action}
    {watch : Watch sights Request Response}
    (attends : Attends move permitted post start now watch)
    (allowed : permitted now action) (moved : move now action = some now') :
    Attends move permitted post start now' watch := by
  obtain ⟨opened, seen, before, after, gathers⟩ := attends
  exact ⟨opened, seen, before, after.next allowed moved, gathers⟩

theorem Attends.look {start now : State} {request : Request} {opened : State}
    {sight : sights.signature.Operation}
    {next : sights.signature.Result sight → Program sights.signature Response}
    (attends : @Attends State Action sights Request Response move permitted
      post start now ⟨request, opened, .perform sight next⟩) :
    Attends move permitted post start now
      ⟨request, opened, next (sights.look now sight)⟩ := by
  obtain ⟨reached, seen, before, after, gathers⟩ := attends
  exact ⟨reached, now, before.trans after, .start, gathers now after⟩

/-- Looking does not disturb the system. -/
theorem Watched.leads
    (reachable : Reachable (Watched.step move program) start
      (Watched.Permits permitted) watched) :
    Leads move permitted start.state watched.state := by
  induction reachable with
  | start => exact .start
  | @step watched action watched' before allowed moved induction =>
      cases action with
      | move action =>
          obtain ⟨state, stepped, rfl⟩ := Option.map_eq_some_iff.mp moved
          exact induction.next allowed stepped
      | visit request =>
          cases moved
          exact induction
      | look watch =>
          simp only [step, look] at moved
          split at moved
          · cases moved
            exact induction
          · cases moved

theorem Watched.attends
    (reachable : Reachable (Watched.step move program) start
      (Watched.Permits permitted) watched)
    (gathers : ∀ request opened, Leads move permitted start.state opened →
      Gathers sights (Leads move permitted) (post request opened)
        (program request) opened) :
    start.watches.length ≤ watched.watches.length ∧
      ∀ index watch, start.watches.length ≤ index →
        watched.watches[index]? = some watch →
        Attends move permitted post start.state watched.state watch := by
  induction reachable with
  | start =>
      refine ⟨Nat.le_refl _, ?_⟩
      intro index watch outside found
      rw [List.getElem?_eq_none outside] at found
      cases found
  | @step watched action watched' before allowed moved induction =>
      obtain ⟨longer, attends⟩ := induction
      cases action with
      | move action =>
          obtain ⟨state, stepped, rfl⟩ := Option.map_eq_some_iff.mp moved
          refine ⟨longer, ?_⟩
          intro index watch outside found
          exact (attends index watch outside found).next allowed stepped
      | visit request =>
          cases moved
          refine ⟨?_, ?_⟩
          · rw [List.length_append]
            omega
          · intro index watch outside found
            rw [List.getElem?_append] at found
            split at found
            · exact attends index watch outside found
            · cases List.mem_singleton.mp (List.mem_of_getElem? found)
              have reached := Watched.leads before
              exact ⟨reached, _, .start, .start, gathers request _ reached⟩
      | look other =>
          simp only [step, look] at moved
          split at moved
          · rename_i request opened sight next looking
            cases moved
            refine ⟨?_, ?_⟩
            · rw [List.length_set]
              exact longer
            · intro index watch outside found
              rw [List.getElem?_set] at found
              split at found
              · rename_i same
                subst same
                split at found
                · cases found
                  exact (attends other _ outside looking).look
                · cases found
              · exact attends index watch outside found
          · cases moved

/-- What a look that has come to its end has found: it was right about a state
between its beginning and now. -/
theorem Watched.returned {index : Nat} {request : Request} {opened : State}
    {response : Response}
    (reachable : Reachable (Watched.step move program) start
      (Watched.Permits permitted) watched)
    (gathers : ∀ request opened, Leads move permitted start.state opened →
      Gathers sights (Leads move permitted) (post request opened)
        (program request) opened)
    (outside : start.watches.length ≤ index)
    (found : watched.watches[index]? =
      some ⟨request, opened, .pure response⟩) :
    Leads move permitted start.state opened ∧
      ∃ closed, Leads move permitted opened closed ∧
        Leads move permitted closed watched.state ∧
        post request opened response closed := by
  obtain ⟨_, attends⟩ := Watched.attends reachable gathers
  obtain ⟨reached, closed, before, after, holds⟩ :=
    attends index _ outside found
  exact ⟨reached, closed, before, after, holds⟩

end Reach

end Concurrent
