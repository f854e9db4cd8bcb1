import Matchmaker.Outcome.Uncontended
import Matchmaker.Sequential.Rounds

namespace Matchmaker

open Concurrent Ranking

/-! Which seeds a worker ever tries while the clock stands still. -/

/-- Ten players wait within the bounds of this one. -/
def Core.Satisfiable (core : Core) (ctx : WorkerContext) (seed : Player) :
    Prop :=
  matchSize ≤ (core.window (core.scanned ctx seed)).length

instance (core : Core) (ctx : WorkerContext) (seed : Player) :
    Decidable (core.Satisfiable ctx seed) :=
  inferInstanceAs (Decidable (_ ≤ _))

/-- The state of a worker after some failures with this seed. -/
def WorkerState.failedWith (seed : Player) : Nat → WorkerState
  | 0 => .new
  | failures + 1 => (failedWith seed failures).recordFailure seed.id

variable {ctx : WorkerContext} {state state' : WorkerState}
  {core core' : Core} {seed primarySeed : Player} {alternate : Option Player}
  {answer : MatchAttemptResult}
  {log : List (Program.Served semantics Unit MatchAttemptResult)}

theorem WorkerState.failedWith_succ {failures : Nat}
    (few : failures < seedRetryLimit) :
    failedWith primarySeed (failures + 1) =
      ⟨failures + 1, some primarySeed.id⟩ := by
  induction failures with
  | zero => rfl
  | succ failures induction =>
      have small : failures + 1 + 1 < 2 ^ 32 := by
        simp only [seedRetryLimit] at few
        omega
      rw [failedWith, induction (by omega), recordFailure, if_pos rfl]
      exact congrArg (WorkerState.mk · _) (Nat.mod_eq_of_lt small)

theorem WorkerState.stuck_failedWith_iff {failures : Nat}
    (few : failures ≤ seedRetryLimit) :
    (failedWith primarySeed failures).Stuck primarySeed ↔
      failures = seedRetryLimit := by
  cases failures with
  | zero => exact iff_of_false nofun nofun
  | succ failures =>
      rw [Stuck, failedWith_succ few]
      simp only [true_and]
      omega

/-- What the guard may choose from. -/
structure Core.Offers (core : Core) (ctx : WorkerContext)
    (primarySeed : Player) (alternate : Option Player) : Prop where
  eldest : Least Player.seedKey core.waiting (some primarySeed)
  next : Least Player.seedKey (core.waiting.filter
    (Player.outside (core.scanned ctx primarySeed))) alternate

/-- Some seed that the guard may choose has ten players within its bounds. -/
def Core.Promising (core : Core) (ctx : WorkerContext) (primarySeed : Player)
    (alternate : Option Player) : Prop :=
  core.Satisfiable ctx primarySeed ∨
    ∃ other ∈ alternate, core.Satisfiable ctx other

theorem Core.Offers.selected (keyed : WellKeyed core)
    (offers : core.Offers ctx primarySeed alternate)
    (selects : core.Selects Eq ctx state (some seed)) :
    (¬ state.Stuck primarySeed → seed = primarySeed) ∧
      (state.Stuck primarySeed → seed = alternate.getD primarySeed) := by
  constructor
  · intro fresh
    have direct : core.Selects Eq ctx state (some primarySeed) :=
      .direct offers.eldest (by rintro _ ⟨⟩; exact fresh)
    exact Option.some.inj (selects.unique keyed direct)
  · intro stuck
    have beyond : core.Selects Eq ctx state
        (alternate.or (some primarySeed)) :=
      .beyond offers.eldest stuck (sometime_eq.mpr rfl) offers.next rfl
    have same := selects.unique keyed beyond
    cases alternate with
    | none => exact Option.some.inj same
    | some other => exact Option.some.inj same

/-- A call succeeds or leaves the pool as it is, as its seed decides. -/
theorem round_cases
    (offers : core.Offers ctx primarySeed alternate)
    (attempts : core.Attempts Eq ctx state (answer, state') core') :
    ∃ seed, core.Selects Eq ctx state (some seed) ∧
      ((∃ record, answer = .success record) ↔ core.Satisfiable ctx seed) ∧
      ((∀ record, answer ≠ .success record) →
        state' = state.recordFailure seed.id ∧ core.Alike core') := by
  cases attempts with
  | poolEmpty nobody drifts =>
      have member := offers.eldest.1
      rw [nobody] at member
      cases member
  | @insufficient seed _ _ _ selects scans few staged drifts =>
      obtain rfl := sometime_eq.mp scans
      obtain rfl := drifts_eq.mp drifts
      refine ⟨seed, selects, iff_of_false (by simp) ?_, fun _ =>
        ⟨rfl, _, rfl⟩⟩
      exact Nat.not_le_of_lt few
  | @success seed _ _ _ selects scans enough after drifts =>
      obtain rfl := sometime_eq.mp scans
      exact ⟨seed, selects, iff_of_true ⟨_, rfl⟩ enough,
        fun failed => absurd rfl (failed _)⟩

theorem Core.Alike.consistent (alike : core.Alike core')
    (consistent : Consistent core) : Consistent core' := by
  obtain ⟨metrics, rfl⟩ := alike
  exact @Core.SamePool.consistent core _ ⟨rfl, rfl, rfl⟩ consistent

theorem Core.Alike.offers (alike : core.Alike core')
    (offers : core.Offers ctx primarySeed alternate) :
    core'.Offers ctx primarySeed alternate := by
  obtain ⟨metrics, rfl⟩ := alike
  exact ⟨offers.eldest, offers.next⟩

theorem Core.Alike.satisfiable (alike : core.Alike core') :
    core'.Satisfiable ctx seed ↔ core.Satisfiable ctx seed := by
  obtain ⟨metrics, rfl⟩ := alike
  exact Iff.rfl

theorem Core.Alike.promising (alike : core.Alike core') :
    core'.Promising ctx primarySeed alternate ↔
      core.Promising ctx primarySeed alternate := by
  simp only [Core.Promising, alike.satisfiable]

theorem rounds_never (consistent : Consistent core)
    (offers : core.Offers ctx primarySeed alternate)
    (hopeless : ¬ core.Promising ctx primarySeed alternate)
    (rounds : Rounds Eq ctx state core log state' core') :
    ∀ served ∈ log, ∀ record, served.answer ≠ .success record := by
  refine Rounds.induct (motive := fun _ core log _ _ =>
    core.Offers ctx primarySeed alternate →
      ¬ core.Promising ctx primarySeed alternate →
        ∀ served ∈ log, ∀ record, served.answer ≠ .success record)
    ?_ ?_ consistent rounds offers hopeless
  · nofun
  · intro state core answer state' core' log _ _ consistent attempts
      induction offers hopeless
    obtain ⟨seed, selects, succeeds, failed⟩ := round_cases offers attempts
    have unsatisfied : ¬ core.Satisfiable ctx seed := by
      intro satisfiable
      obtain ⟨direct, beyond⟩ :=
        offers.selected consistent.toWellKeyed selects
      by_cases stuck : state.Stuck primarySeed
      · rw [beyond stuck] at satisfiable
        cases alternate with
        | none => exact hopeless (.inl satisfiable)
        | some other => exact hopeless (.inr ⟨other, rfl, satisfiable⟩)
      · rw [direct stuck] at satisfiable
        exact hopeless (.inl satisfiable)
    have unmatched : ∀ record, answer ≠ .success record :=
      fun record success => unsatisfied (succeeds.mp ⟨record, success⟩)
    have alike := (failed unmatched).2
    rintro served (_ | ⟨_, member⟩)
    · exact unmatched
    · exact induction (alike.offers offers)
        (fun promising => hopeless (alike.promising.mp promising)) served
        member

/-- While the failures last, every call tries the eldest player again, and
after the third the alternate seed. -/
theorem rounds_failed {failures left : Nat}
    (total : failures + left = seedRetryLimit)
    (consistent : Consistent core)
    (offers : core.Offers ctx primarySeed alternate)
    (promising : core.Promising ctx primarySeed alternate)
    (tried : 0 < failures → ¬ core.Satisfiable ctx primarySeed)
    (rounds : Rounds Eq ctx (.failedWith primarySeed failures) core log state
      core')
    (long : left < log.length) :
    ∃ served ∈ log.take (left + 1),
      ∃ record, served.answer = .success record := by
  refine Rounds.induct (motive := fun state core log _ _ =>
    ∀ failures left, failures + left = seedRetryLimit →
      state = .failedWith primarySeed failures →
        core.Offers ctx primarySeed alternate →
          core.Promising ctx primarySeed alternate →
            (0 < failures → ¬ core.Satisfiable ctx primarySeed) →
              left < log.length → ∃ served ∈ log.take (left + 1),
                ∃ record, served.answer = .success record)
    ?_ ?_ consistent rounds failures left total rfl offers promising tried long
  · intro _ _ _ failures left _ _ _ _ _ long
    cases long
  · intro state core answer state' core' log _ _ consistent attempts
      induction failures left total started offers promising tried long
    obtain ⟨seed, selects, succeeds, failed⟩ := round_cases offers attempts
    obtain ⟨direct, beyond⟩ := offers.selected consistent.toWellKeyed selects
    have stuck_iff : state.Stuck primarySeed ↔ failures = seedRetryLimit := by
      rw [started]
      exact WorkerState.stuck_failedWith_iff (by omega)
    by_cases matched : ∃ record, answer = .success record
    · exact ⟨_, List.mem_cons_self .., matched⟩
    have unmatched : ∀ record, answer ≠ .success record :=
      fun record success => matched ⟨record, success⟩
    obtain ⟨rfl, alike⟩ := failed unmatched
    rw [succeeds] at matched
    cases left with
    | zero =>
        -- the eldest has failed before, so the promise lies in the alternate
        have all : failures = seedRetryLimit := total
        rw [beyond (stuck_iff.mpr all)] at matched
        have eldest := tried (by rw [all]; decide)
        obtain ⟨other, rfl, satisfiable⟩ := promising.resolve_left eldest
        exact absurd satisfiable matched
    | succ left =>
        have room : failures < seedRetryLimit := by omega
        have same := direct (fun stuck => room.ne (stuck_iff.mp stuck))
        rw [same] at matched
        obtain ⟨served, member, success⟩ := induction (failures + 1) left
          (by omega) (by rw [started, same]; rfl) (alike.offers offers)
          (alike.promising.mpr promising)
          (fun _ satisfiable => matched (alike.satisfiable.mp satisfiable))
          (Nat.lt_of_succ_lt_succ long)
        exact ⟨served, List.mem_cons_of_mem _ member, success⟩

/-- A worker that calls again and again while nothing changes matches somebody
within four calls when ten players wait within the bounds of the eldest one or
of the eldest one outside those, and never otherwise. -/
theorem rounds_matched (consistent : Consistent core)
    (eldest : Least Player.seedKey core.waiting (some primarySeed))
    (next : Least Player.seedKey (core.waiting.filter
      (Player.outside (core.scanned ctx primarySeed))) alternate) :
    (∀ count, ∃ log last final, Rounds Eq ctx .new core log last final ∧
      log.length = count) ∧
    ((core.Satisfiable ctx primarySeed ∨
        ∃ other ∈ alternate, core.Satisfiable ctx other) →
      ∀ log last final, Rounds Eq ctx .new core log last final →
        4 ≤ log.length →
          ∃ served ∈ log.take 4, ∃ record, served.answer = .success record) ∧
    ((∃ log last final, Rounds Eq ctx .new core log last final ∧
        ∃ served ∈ log, ∃ record, served.answer = .success record) →
      core.Satisfiable ctx primarySeed ∨
        ∃ other ∈ alternate, core.Satisfiable ctx other) := by
  refine ⟨?_, ?_, ?_⟩
  · exact exists_rounds inOrder
  · intro promising log last final rounds long
    exact @rounds_failed _ _ _ _ _ _ _ 0 seedRetryLimit (Nat.zero_add _)
      consistent ⟨eldest, next⟩ promising nofun rounds long
  · intro found
    obtain ⟨log, last, final, rounds, served, member, record, success⟩ := found
    by_contra hopeless
    exact rounds_never consistent ⟨eldest, next⟩ hopeless rounds served member
      record success

/-- Ten players that suit each other, behind these. -/
def tenBehind (older : List Nat) : List Player :=
  lineUp (older ++ List.replicate 10 2000)

set_option maxRecDepth 100000 in
theorem nodup_tenBehind : ((tenBehind [0]).map (·.id)).Nodup := by
  decide +kernel

set_option maxRecDepth 100000 in
theorem consistent_tenBehind :
    Consistent (.stocked ⟨0, 1000⟩ (tenBehind [0])) :=
  .stocked _ nodup_tenBehind (by decide +kernel)

set_option maxRecDepth 100000 in
theorem offers_tenBehind :
    (Core.stocked ⟨0, 1000⟩ (tenBehind [0])).Offers soleWorker ⟨0, 1, 0, 0⟩
      (some ⟨1, 2, 2000, 1⟩) := by
  constructor
  · rw [waiting_stocked _ nodup_tenBehind]
    exact ⟨by decide +kernel, by decide +kernel⟩
  · rw [waiting_stocked _ nodup_tenBehind]
    exact ⟨by decide +kernel, by decide +kernel⟩

set_option maxRecDepth 100000 in
theorem rounds_matched_outlier :
    ∃ log last final,
      Rounds Eq soleWorker .new (.stocked ⟨0, 1000⟩ (tenBehind [0])) log last
        final ∧ log.length = 4 ∧
      ∃ served ∈ log.take 4, ∃ record, served.answer = .success record := by
  obtain ⟨always, soon, _⟩ := rounds_matched consistent_tenBehind
    offers_tenBehind.eldest offers_tenBehind.next
  obtain ⟨log, last, final, rounds, length⟩ := always 4
  refine ⟨log, last, final, rounds, length, ?_⟩
  exact soon (.inr ⟨_, rfl, by decide +kernel⟩) log last final rounds
    (le_of_eq length.symm)

set_option maxRecDepth 100000 in
/-- Behind two players that suit nobody, ten that suit each other are never
matched. -/
theorem exists_monopolised :
    Config.fromEnv (fun _ => none) = .ok soleWorker.config ∧
      Consistent (.stocked ⟨0, 1000⟩ (tenBehind [0, 1000])) ∧
      (∃ player ∈ (Core.stocked ⟨0, 1000⟩ (tenBehind [0, 1000])).waiting,
        (Core.stocked ⟨0, 1000⟩ (tenBehind [0, 1000])).Satisfiable soleWorker
          player) ∧
      ∀ log last final,
        Rounds Eq soleWorker .new
          (.stocked ⟨0, 1000⟩ (tenBehind [0, 1000])) log last final →
            ∀ served ∈ log, ∀ record, served.answer ≠ .success record := by
  have distinct : ((tenBehind [0, 1000]).map (·.id)).Nodup := by
    decide +kernel
  have consistent : Consistent
      (.stocked ⟨0, 1000⟩ (tenBehind [0, 1000])) :=
    .stocked _ distinct (by decide +kernel)
  refine ⟨rfl, consistent, ⟨⟨2, 3, 2000, 2⟩, ?_, ?_⟩, ?_⟩
  · rw [waiting_stocked _ distinct]
    decide +kernel
  · decide +kernel
  · intro log last final rounds
    have offers : (Core.stocked ⟨0, 1000⟩ (tenBehind [0, 1000])).Offers
        soleWorker ⟨0, 1, 0, 0⟩ (some ⟨1, 2, 1000, 1⟩) := by
      refine ⟨?_, ?_⟩
      · rw [waiting_stocked _ distinct]
        exact ⟨by decide +kernel, by decide +kernel⟩
      · rw [waiting_stocked _ distinct]
        exact ⟨by decide +kernel, by decide +kernel⟩
    refine rounds_never consistent offers ?_ rounds
    rintro (satisfiable | ⟨other, ⟨⟩, satisfiable⟩)
    · revert satisfiable
      decide +kernel
    · revert satisfiable
      decide +kernel

end Matchmaker
