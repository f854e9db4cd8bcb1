import Matchmaker.Engine.Accesses
import Matchmaker.Protocol.Enrolment

namespace Matchmaker

open Concurrent

/-! Workers claim only players that they have found in the rating index. -/

/-- The players that an operation finds in the index. -/
def Operation.found : (operation : Operation) → operation.Result → List Player
  | .indexRange .., players => players
  | _, _ => []

def Operation.Claims : Operation → Bool
  | .exchange _ (.tryClaim ..) => true
  | _ => false

/-- A worker claims what it has found. The other calls do not matter here. -/
def Operation.Scouted (works : Bool) (found : List Player) : Operation → Prop
  | .exchange player (.tryClaim ..) => works → player ∈ found
  | _ => True

def Request.works : Request → Bool
  | .attemptMatch _ => true
  | _ => false

@[reducible] def scouting : Contract memory where
  Role := Bool
  Ghost := List Player
  initial := []
  next := fun found operation result => found ++ operation.found result
  Allowed := fun works found operation => operation.Scouted works found
  Credible := fun _ _ => True

abbrev foundBy (caller : Nat) (trace : Trace) : List Player :=
  scouting.ghost caller trace

theorem scouts_access_bind {works : Bool} {post : α → List Player → Prop}
    {operation : Operation} {rest : operation.Result → Task α}
    {found : List Player} :
    scouting.Obeys works post (access operation >>= rest) found ↔
      operation.Scouted works found ∧ ∀ result, True →
        scouting.Obeys works post (rest result)
          (found ++ operation.found result) :=
  Iff.rfl

theorem scouts_idle {task : Task α} {found : List Player} :
    scouting.Obeys false (fun _ _ => True) task found := by
  induction task generalizing found with
  | pure value => exact trivial
  | perform operation next induction =>
      refine ⟨?_, fun result _ => induction result⟩
      cases operation with
      | exchange player site =>
          cases site <;> first
            | trivial
            | exact fun works => absurd works Bool.false_ne_true
      | _ => trivial

/-- A task that claims nobody. -/
abbrev Unclaiming (task : Task α) (post : α → Prop) : Prop :=
  task.Yields (fun operation : Operation => operation.Claims = false) post

theorem Operation.scouted_of_unclaiming {operation : Operation} (works : Bool)
    (found : List Player) (unclaiming : operation.Claims = false) :
    operation.Scouted works found := by
  cases operation with
  | exchange player site => cases site <;> trivial
  | _ => trivial

theorem Unclaiming.scouts {task : Task α} {post : α → Prop}
    (unclaiming : Unclaiming task post) {works : Bool} {found : List Player} :
    scouting.Obeys works (fun value later => post value ∧ found ⊆ later)
      task found :=
  Contract.Obeys.of_yields List.Subset.trans
    (fun _ found => Operation.scouted_of_unclaiming works found)
    (fun _ _ _ _ => List.subset_append_left _ _) unclaiming
    (List.Subset.refl found)

theorem Unclaiming.obeys {task : Task α} {post : α → Prop}
    (unclaiming : Unclaiming task post) {works : Bool} {found : List Player} :
    scouting.Obeys works (fun _ _ => True) task found :=
  unclaiming.scouts.mono fun _ _ _ => trivial

theorem Looks.unclaiming {task : Task α} {post : α → Prop}
    (looks : Looks task post) : Unclaiming task post := by
  apply looks.permit
  intro operation passive
  cases operation <;> first
    | rfl
    | cases passive

theorem unclaiming_access {operation : Operation}
    (unclaiming : operation.Claims = false) :
    Unclaiming (access operation) fun _ => True :=
  Program.yields_request unclaiming

section Tasks

variable {found : List Player}

theorem unclaiming_rollback (claimed : List Player)
    (outcome : MatchAttemptResult × WorkerState) :
    Unclaiming (do
      forM claimed Player.releaseClaim
      fetchAdd .matchAttemptsClaimFailed 1
      return outcome) fun _ => True := by
  have releasing : Unclaiming (forM claimed Player.releaseClaim) _ :=
    Program.Yields.forM (fun player =>
      player.yields_releaseClaim rfl rfl rfl) claimed
  apply releasing.bind
  intro _ _
  exact (unclaiming_access rfl).bind fun _ _ => Program.yields_value _

theorem unclaiming_completeMatch (ctx : WorkerContext) (state : WorkerState)
    (claimed : List Player) :
    Unclaiming (completeMatch ctx state claimed) fun _ => True := by
  have marking : Unclaiming (forM claimed Player.markMatched) _ :=
    Program.Yields.forM (fun player =>
      player.yields_markMatched rfl (fun _ => rfl) rfl) claimed
  apply marking.bind
  intro _ _
  apply (reads_buildMatch claimed _).looks.unclaiming.bind
  intro built _
  have removing : Unclaiming (forM claimed fun player => do
      let _ ← PlayerPool.remove player.id) _ :=
    yields_removing claimed (fun _ => rfl) fun _ => rfl
  apply removing.bind
  intro _ _
  apply (unclaiming_access rfl).bind
  intro _ _
  exact (looks_updateMetricsOnSuccess _ _ _).unclaiming.bind
    fun _ _ => Program.yields_value _

theorem Player.scouts_tryClaim {player : Player} (member : player ∈ found)
    (workerId nowMs : Nat) :
    scouting.Obeys true (fun _ later => found ⊆ later)
      (player.tryClaim workerId nowMs) found := by
  have grown : found ⊆ found ++ [] := List.subset_append_left _ _
  refine scouts_access_bind.mpr ⟨fun _ => member, ?_⟩
  rintro (_ | _) _
  · exact grown
  · have stamping : Unclaiming (do
        access (.storeClaimedBy player workerId)
        access (.storeClaimTimestamp player nowMs)
        return true) fun _ => True := by
      apply (unclaiming_access rfl).bind
      intro _ _
      exact (unclaiming_access rfl).bind fun _ _ => Program.yields_value _
    exact stamping.scouts.mono fun _ _ kept => List.Subset.trans grown kept.2

theorem scouts_claimCandidates (workerId nowMs : Nat)
    {rest : List Player} (claimed : List Player) (among : rest ⊆ found) :
    scouting.Obeys true (fun _ _ => True)
      (claimCandidates workerId nowMs rest claimed) found := by
  induction rest generalizing claimed found with
  | nil => exact trivial
  | cons candidate rest induction =>
      obtain ⟨member, others⟩ := List.cons_subset.mp among
      unfold claimCandidates
      split
      · exact trivial
      · apply (Player.scouts_tryClaim member workerId nowMs).bind
        rintro (_ | _) later kept
        · exact induction claimed (List.Subset.trans others kept)
        · exact induction (claimed ++ [candidate]) (List.Subset.trans others kept)

theorem scouts_rangeScan (minRating maxRating : Nat) :
    scouting.Obeys true (fun candidates later => candidates ⊆ later)
      (PlayerPool.rangeScan minRating maxRating) found := by
  refine scouts_access_bind.mpr ⟨trivial, fun entries _ => ?_⟩
  apply (PlayerPool.reads_scanEntries entries []).looks.unclaiming.scouts.bind
  intro kept later given
  obtain ⟨⟨_, rfl, sublist⟩, grown⟩ := given
  intro player member
  have listed := (List.perm_insertionSort _ _).subset member
  exact grown (List.mem_append_right _ (sublist.subset listed))

theorem scouts_claimMatch (ctx : WorkerContext) (state : WorkerState)
    (seed : Player) {candidates : List Player} (among : candidates ⊆ found) :
    scouting.Obeys true (fun _ _ => True)
      (claimMatch ctx state seed candidates) found := by
  refine scouts_access_bind.mpr ⟨trivial, fun nowMs _ => ?_⟩
  apply (scouts_claimCandidates _ _ [] (List.Subset.trans among
    (List.subset_append_left _ _))).bind
  intro claimed _ _
  split
  · exact (unclaiming_rollback claimed _).obeys
  · exact (unclaiming_completeMatch ctx state claimed).obeys

theorem scouts_attemptMatch (ctx : WorkerContext) (state : WorkerState) :
    scouting.Obeys true (fun _ _ => True) (attemptMatch ctx state) found := by
  apply (reads_selectSeed ctx state).looks.unclaiming.scouts.bind
  rintro (_ | seed) _ _
  · exact trivial
  apply (reads_scanBounds _ _ _).looks.unclaiming.scouts.bind
  rintro ⟨minRating, maxRating⟩ _ _
  apply (reads_relaxationStage _ _).looks.unclaiming.scouts.bind
  intro stage _ _
  refine scouts_access_bind.mpr ⟨trivial, fun _ _ => ?_⟩
  apply (scouts_rangeScan _ _).bind
  intro candidates later among
  dsimp only
  split
  · exact scouts_access_bind.mpr ⟨trivial, fun _ _ => trivial⟩
  · exact scouts_claimMatch ctx state seed among

theorem System.scouts_program {config : Config} {system : System}
    {request : Request} {task : Task Response}
    (launched : system.program config request = some task) :
    scouting.Obeys request.works (fun _ _ => True) task [] := by
  cases request with
  | attemptMatch workerId =>
      obtain ⟨state, _, rfl⟩ := Option.map_eq_some_iff.mp launched
      exact (scouts_attemptMatch _ state).map fun _ _ _ => trivial
  | _ => exact scouts_idle

end Tasks

section Run

variable {config : Config} {clock : Clock} {discipline : Discipline}
  {system : System}

theorem Run.follows_scouting (run : Run config clock discipline system) :
    system.Follows scouting Request.works fun _ _ _ => True :=
  Run.follows run System.scouts_program fun _ _ _ => trivial

theorem Run.indexed_of_found (run : Run config clock discipline system)
    {caller : Nat} {player : Player}
    (found : player ∈ foundBy caller system.trace) :
    player ∈ indexed system.trace := by
  refine Run.invariant run (fun _ trace => player ∈ foundBy caller trace →
    player ∈ indexed trace) nofun (fun _ _ holds => holds) ?_ found
  intro system mover request operation choice run performing holds found
  rw [mem_indexed_cons]
  by_cases same : mover = caller
  · subst same
    rw [foundBy, Contract.ghost_self] at found
    rcases List.mem_append.mp found with earlier | now
    · exact .inl (holds earlier)
    · cases operation with
      | indexRange lower upper =>
          obtain ⟨key, inIndex, _⟩ := mem_indexRange.mp now
          exact .inl (Run.indexed_of_index run inIndex)
      | _ => cases now
  · rw [foundBy, Contract.ghost_other same] at found
    exact .inl (holds found)

theorem Run.indexed_of_claim (run : Run config clock discipline system)
    {caller : Nat} {player : Player} {workerId nowMs : Nat}
    (claimed : ⟨caller, player, .tryClaim workerId nowMs⟩ ∈
      transfers system.trace) :
    player ∈ indexed system.trace := by
  refine Run.invariant run (fun _ trace =>
    ⟨caller, player, .tryClaim workerId nowMs⟩ ∈ transfers trace →
      player ∈ indexed trace) nofun (fun _ _ holds => holds) ?_ claimed
  intro system mover request operation choice run performing holds member
  rw [mem_indexed_cons]
  rcases transfers_cons_cases member with earlier | succeeded
  · exact .inl (holds earlier)
  · obtain rfl : operation = _ := congrArg Event.operation succeeded
    obtain ⟨next, found⟩ := performing.next
    have works : request.works := by
      have attempt := performing.allowed.1
      cases request <;> first
        | rfl
        | cases attempt
    have scouted := (Run.follows_scouting run mover _ found).1 works
    exact .inl (Run.indexed_of_found run scouted)

end Run

end Matchmaker
