import Matchmaker.Concurrent.Program

namespace Concurrent

/-- What the atomic operations do to the shared world. The outcome may depend
on a choice that the program does not control. -/
structure Semantics (signature : Signature) where
  World : Type
  Choice : Type
  perform : Choice → World → (operation : signature.Operation) →
    signature.Result operation × World

namespace Program

variable {signature : Signature} {semantics : Semantics signature}

/-- Run a program to its end with nothing else running. -/
def exec (semantics : Semantics signature) (choice : semantics.Choice) :
    Program signature α → semantics.World → α × semantics.World
  | .pure value, world => (value, world)
  | .perform operation next, world =>
      let outcome := semantics.perform choice world operation
      (next outcome.1).exec semantics choice outcome.2

end Program

end Concurrent
