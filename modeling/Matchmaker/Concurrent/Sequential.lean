import Matchmaker.Concurrent.Execution

namespace Concurrent.Program

/-! Programs that run alone, in a world that may drift between two of their
operations. -/

variable {signature : Signature}

/-- The program comes to its end with this value, in this world. -/
inductive Completes (semantics : Semantics signature)
    (drift : semantics.World → semantics.World → Prop) :
    Program signature α → semantics.World → α → semantics.World → Prop
  | pure (value : α) (world : semantics.World) :
      Completes semantics drift (.pure value) world value world
  | perform {operation : signature.Operation}
      {next : signature.Result operation → Program signature α}
      (choice : semantics.Choice) (drifted : drift before world)
      (rest : Completes semantics drift
        (next (semantics.perform choice world operation).1)
        (semantics.perform choice world operation).2 value after) :
      Completes semantics drift (.perform operation next) before value after

/-- However the program completes, its value and the world satisfy `post`. -/
def Ensures (semantics : Semantics signature)
    (drift : semantics.World → semantics.World → Prop)
    (post : α → semantics.World → Prop) :
    Program signature α → semantics.World → Prop
  | .pure value, world => post value world
  | .perform operation next, before => ∀ world, drift before world →
      ∀ choice, (next (semantics.perform choice world operation).1).Ensures
        semantics drift post (semantics.perform choice world operation).2

variable {semantics : Semantics signature}
  {drift : semantics.World → semantics.World → Prop}

theorem completes_exec (still : ∀ world, drift world world)
    (choice : semantics.Choice) (program : Program signature α)
    (world : semantics.World) :
    program.Completes semantics drift world
      (program.exec semantics choice world).1
      (program.exec semantics choice world).2 := by
  induction program generalizing world with
  | pure value => exact .pure value world
  | perform operation next induction =>
      exact .perform choice (still world) (induction _ _)

section Ensures

variable {post post' : α → semantics.World → Prop}
  {program : Program signature α} {world : semantics.World}

theorem Ensures.mono (ensures : program.Ensures semantics drift post world)
    (weaken : ∀ value world, post value world → post' value world) :
    program.Ensures semantics drift post' world := by
  induction program generalizing world with
  | pure value => exact weaken value world ensures
  | perform operation next induction =>
      intro drifted drifts choice
      exact induction _ (ensures drifted drifts choice)

theorem Ensures.bind {rest : α → Program signature β}
    {post' : β → semantics.World → Prop}
    (first : program.Ensures semantics drift post world)
    (second : ∀ value world, post value world →
      (rest value).Ensures semantics drift post' world) :
    (program >>= rest).Ensures semantics drift post' world := by
  induction program generalizing world with
  | pure value => exact second value world first
  | perform operation next induction =>
      intro drifted drifts choice
      exact induction _ (first drifted drifts choice)

theorem Ensures.map {f : α → β} {post' : β → semantics.World → Prop}
    (ensures : program.Ensures semantics drift post world)
    (mapped : ∀ value world, post value world → post' (f value) world) :
    (f <$> program).Ensures semantics drift post' world := by
  rw [map_eq_pure_bind]
  exact ensures.bind mapped

theorem Ensures.completes {value : α} {after : semantics.World}
    (ensures : program.Ensures semantics drift post world)
    (completes : program.Completes semantics drift world value after) :
    post value after := by
  induction completes with
  | pure value world => exact ensures
  | perform choice drifted rest induction =>
      exact induction (ensures _ drifted choice)

theorem Ensures.exec (ensures : program.Ensures semantics drift post world)
    (still : ∀ world, drift world world) (choice : semantics.Choice) :
    post (program.exec semantics choice world).1
      (program.exec semantics choice world).2 :=
  ensures.completes (completes_exec still choice program world)

/-- Rule for a loop over a list: `invariant` speaks of the items that are done
and of those still to come. -/
theorem Ensures.forM {items : List ι} {body : ι → Program signature PUnit}
    {invariant : List ι → List ι → semantics.World → Prop}
    (start : invariant [] items world)
    (step : ∀ finished item rest world,
      invariant finished (item :: rest) world →
      (body item).Ensures semantics drift
        (fun _ world => invariant (finished ++ [item]) rest world) world) :
    (forM items body).Ensures semantics drift
      (fun _ world => invariant items [] world) world := by
  suffices ∀ finished rest world, finished ++ rest = items →
      invariant finished rest world →
      (ForM.forM rest body : Program signature PUnit).Ensures semantics drift
        (fun _ world => invariant items [] world) world from
    this [] items world rfl start
  intro finished rest world split holds
  induction rest generalizing finished world with
  | nil =>
      rw [List.append_nil] at split
      rw [split] at holds
      exact holds
  | cons item rest induction =>
      rw [List.forM_cons]
      apply (step finished item rest world holds).bind
      intro _ world held
      exact induction (finished ++ [item]) world (by simpa using split) held

end Ensures

/-- A call that has completed, and the world it left. -/
structure Served (semantics : Semantics signature) (ι α : Type) where
  request : ι
  answer : α
  world : semantics.World

/-- Calls that run one after the other. Each hands something on to the next. -/
inductive Serial (semantics : Semantics signature)
    (drift : semantics.World → semantics.World → Prop)
    (serve : σ → ι → Program signature (α × σ)) :
    σ → semantics.World → List (Served semantics ι α) →
      σ → semantics.World → Prop
  | nil (kept : σ) (world : semantics.World) :
      Serial semantics drift serve kept world [] kept world
  | cons {request : ι}
      (completes : (serve kept request).Completes semantics drift world
        (answer, kept') world')
      (rest : Serial semantics drift serve kept' world' log last final) :
      Serial semantics drift serve kept world (⟨request, answer, world'⟩ :: log)
        last final

section Serial

variable {serve : σ → ι → Program signature (α × σ)}

theorem Serial.first {kept last : σ} {world final : semantics.World}
    {log : List (Served semantics ι α)}
    (serial : Serial semantics drift serve kept world log last final)
    (some : 0 < log.length) :
    ∃ request answer kept' world' others,
      log = ⟨request, answer, world'⟩ :: others ∧
      (serve kept request).Completes semantics drift world (answer, kept')
        world' ∧
      Serial semantics drift serve kept' world' others last final := by
  cases serial with
  | nil => cases some
  | cons completes rest => exact ⟨_, _, _, _, _, rfl, completes, rest⟩

def serially (choice : semantics.Choice)
    (serve : σ → ι → Program signature (α × σ)) :
    List ι → σ → semantics.World →
      List (Served semantics ι α) × σ × semantics.World
  | [], kept, world => ([], kept, world)
  | request :: requests, kept, world =>
      let outcome := (serve kept request).exec semantics choice world
      let rest := serially choice serve requests outcome.1.2 outcome.2
      (⟨request, outcome.1.1, outcome.2⟩ :: rest.1, rest.2)

theorem serial_serially (still : ∀ world, drift world world)
    (choice : semantics.Choice) (requests : List ι) (kept : σ)
    (world : semantics.World) :
    Serial semantics drift serve kept world
      (serially choice serve requests kept world).1
      (serially choice serve requests kept world).2.1
      (serially choice serve requests kept world).2.2 := by
  induction requests generalizing kept world with
  | nil => exact .nil kept world
  | cons request requests induction =>
      exact .cons (completes_exec still choice (serve kept request) world)
        (induction _ _)

theorem requests_serially (choice : semantics.Choice) (requests : List ι)
    (kept : σ) (world : semantics.World) :
    (serially choice serve requests kept world).1.map (·.request) =
      requests := by
  induction requests generalizing kept world with
  | nil => rfl
  | cons request requests induction => exact congrArg _ (induction _ _)

end Serial

end Concurrent.Program
