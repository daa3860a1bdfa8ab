import TestRig.Response

/-!
# Executors

An executor runs one test. It may wait at a gate that is opened from outside; when the gate opens or
the run is superseded, it comes to its end: a response, a failure, or a crash that gives neither.
-/

namespace TestRig

open Json (Value)

/-- How a run ends. -/
inductive Ending where
  | responded (response : Response)
  | failed (failure : Failure)
  | crashed
  deriving Repr, Inhabited

/-- What a run does: it waits at a gate, if it has one, and ends. -/
structure Activity where
  gate : Option String := none
  ending : Ending
  deriving Repr, Inhabited

/-- Runs a test on a payload. -/
abbrev Executor := Invocation → Value → Activity

namespace Activity

/-- A run that ends at once with a response. -/
def respond (response : Response) : Activity :=
  { ending := .responded response }

/-- A run that ends at once with a failure. -/
def fail (failure : Failure) : Activity :=
  { ending := .failed failure }

/-- A run that crashes at once. -/
def crash : Activity :=
  { ending := .crashed }

end Activity

end TestRig
