import Matchmaker.Protocol.Ownership

namespace Matchmaker

open Concurrent

/-! Who ends a claim. The exchanges of `release_claim` and `mark_matched`
compare the state byte only, not the owner. -/

def endsOwnClaims : Trace → Bool
  | [] => true
  | ⟨caller, .exchange player .releaseClaim, true⟩ :: before
  | ⟨caller, .exchange player .markMatched, true⟩ :: before =>
      (claimOf player before).any (·.caller = caller) && endsOwnClaims before
  | _ :: before => endsOwnClaims before

section Run

variable {config : Config} {clock : Clock} {system : System}

theorem Run.ends_own (run : Run config clock .ownClaims system) {caller : Nat}
    {request : Request} {player : Player} {site : Exchange}
    (performing : Performing config .ownClaims system caller request
      (.exchange player site))
    (ending : site = .releaseClaim ∨ site = .markMatched)
    (success : (system.world.exchange player site).1 = true) :
    (claimOf player system.trace).any (·.caller = caller) = true := by
  have current := exchange_succeeds_iff.mp success
  have owns : Owns caller player system.trace := by
    have lawful := performing.permitted
    rcases ending with rfl | rfl
    · simp only [Discipline.ownClaims, current, Exchange.current] at lawful
      exact (Run.owns run performing.active_releasing).resolve_right
        (by simpa using lawful)
    · simp only [Discipline.ownClaims, current, Exchange.current] at lawful
      exact (Run.owns run performing.active_marking).resolve_right
        (by simpa using lawful)
  obtain ⟨claim, inForce, same⟩ := owns
  simp [inForce, same]

/-- No call ends the claim of another one, as long as no call releases or
matches a claimed player after the Reaper has reset its own claim. -/
theorem run_endsOwnClaims (run : Run config clock .ownClaims system) :
    endsOwnClaims system.trace = true := by
  apply Run.invariant run (fun _ trace => endsOwnClaims trace = true) rfl
    (fun _ _ holds => holds)
  intro system caller request operation choice run performing holds
  cases operation with
  | exchange player site =>
      have ends := Run.ends_own run performing
      simp only [System.eventOf, Core.perform]
      generalize (system.world.exchange player site).1 = success at ends
      cases site with
      | releaseClaim =>
          cases success with
          | true => exact Bool.and_eq_true_iff.mpr ⟨ends (.inl rfl) rfl, holds⟩
          | false => exact holds
      | markMatched =>
          cases success with
          | true => exact Bool.and_eq_true_iff.mpr ⟨ends (.inr rfl) rfl, holds⟩
          | false => exact holds
      | _ => exact holds
  | _ => exact holds

end Run

set_option maxRecDepth 100000 in
theorem run_endsOwnClaims_match :
    ∃ system, Run .default ⟨0, 1000⟩ .ownClaims system ∧
      endsOwnClaims system.trace = true ∧
      (publications system.trace).length = 1 ∧
      system.world.metrics.totalStaleClaimsRecovered = 9 := by
  obtain ⟨system, run, check⟩ : ∃ system,
      Run .default ⟨0, 1000⟩ .ownClaims system ∧
        decide ((publications system.trace).length = 1 ∧
          system.world.metrics.totalStaleClaimsRecovered = 9) = true := by
    apply exists_run_of_play lateReleases
    decide +kernel
  exact ⟨system, run, run_endsOwnClaims run, of_decide_eq_true check⟩

/-- Two workers have the same ten candidates. The first one claims them and
stalls, the Reaper resets them, the second one claims a player, and the first
one marks it as matched. -/
def foreignMatch : List Action :=
  arrivals 10 1500 ++
    [.start (.attemptMatch 1), .start (.attemptMatch 2)] ++
    turns 11 36 ++ turns 10 66 ++
    [.tick 1000000000 1000, .start .reaperTick] ++ turns 12 63 ++
    turns 11 3 ++ turns 10 3

set_option maxRecDepth 100000 in
theorem exists_foreign_match :
    ∃ system, Run .default ⟨0, 1000⟩ .free system ∧
      endsOwnClaims system.trace = false := by
  obtain ⟨system, run, foreign⟩ : ∃ system,
      Run .default ⟨0, 1000⟩ .free system ∧
        (!endsOwnClaims system.trace) = true := by
    apply exists_run_of_play foreignMatch
    decide +kernel
  exact ⟨system, run, by simpa using foreign⟩

end Matchmaker
