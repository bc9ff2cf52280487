import OneShot.Failure.Fault

/-!
# Signals

A piece of work ends once, well or badly. Before that it may be asked to
give up: an abort ends nothing by itself, it only settles that the end
will be a failure.
-/

namespace OneShot

/-- How a piece of work ended. -/
inductive Ending
  | success
  | failure (cause : Cause)
  deriving DecidableEq, Inhabited

inductive Signal
  | finish (ending : Ending)
  | abort (cause : Cause)
  deriving DecidableEq, Inhabited

/-- The cause of a failure; none of a success. -/
def Ending.cause? : Ending → Option Cause
  | success => none
  | failure cause => some cause

/-- The cause a signal carries. -/
def Signal.cause? : Signal → Option Cause
  | finish ending => ending.cause?
  | abort cause => some cause

end OneShot
