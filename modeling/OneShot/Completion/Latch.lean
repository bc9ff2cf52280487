import OneShot.Completion.Hook
import OneShot.Failure.Display

/-!
# Latches

A latch takes any number of signals and settles on one outcome. While
its abort hooks run it is aborting, and only notes that an ending has
come; once they are through it is aborted, and fails with the abort's
cause when the work ends. Signals that come too late leave it as it is:
their causes are suppressed by the one it holds.
-/

namespace OneShot

namespace Latch

inductive State
  | idle
  | aborting (cause : Cause) (completing : Bool)
  | aborted (cause : Cause)
  | succeeded
  | failed (cause : Cause)
  deriving DecidableEq, Inhabited

/-- What is left to do for the caller whose signal has been received. -/
inductive Duty
  | call (hooks : List Hook)
  | suppress (keeper : Cause) (late : Option Cause) (hooks : List Hook)
  | abort (cause : Cause)
  deriving DecidableEq, Inhabited

namespace State

/-- The cause that the state holds. -/
def cause? : State → Option Cause
  | idle | succeeded => none
  | aborting cause _ | aborted cause | failed cause => some cause

def isAborted : State → Bool
  | aborting _ _ | aborted _ => true
  | _ => false

def isCompleted : State → Bool
  | succeeded | failed _ => true
  | _ => false

def receive : State → Signal → State × Duty
  | idle, .finish .success => (succeeded, .call [.succeeded, .completed none])
  | idle, .finish (.failure d) => (failed d, .call [.failed d, .completed (some d)])
  | idle, .abort d => (aborting d false, .abort d)
  | aborting c _, .finish e => (aborting c true, .suppress c e.cause? [])
  | aborting c completing, .abort d => (aborting c completing, .suppress c (some d) [])
  | aborted c, .finish e => (failed c, .suppress c e.cause? [.completed (some c)])
  | aborted c, .abort d => (aborted c, .suppress c (some d) [])
  | succeeded, _ => (succeeded, .call [])
  | failed c, s => (failed c, .suppress c s.cause? [])

/-- Leaves aborting once the abort hooks are through. True if an ending
has come meanwhile, so that the latch is complete. -/
def publish : State → State × Bool
  | aborting c true => (failed c, true)
  | aborting c false => (aborted c, false)
  | state => (state, false)

@[simp] theorem receive_succeeded (s : Signal) : succeeded.receive s = (succeeded, .call []) := by
  cases s <;> rfl

@[simp] theorem receive_failed (c : Cause) (s : Signal) :
    (failed c).receive s = (failed c, .suppress c s.cause? []) := by
  cases s <;> rfl

@[simp] theorem isCompleted_eq_false_of_isAborted {state : State} (h : state.isAborted = true) :
    state.isCompleted = false := by
  cases state <;> simp_all [isAborted, isCompleted]

def display (r : Register) : State → String
  | idle => "Idle"
  | aborting c completing =>
      Text.braced "Aborting" [("cause", r.showCause c), ("completing", toString completing)]
  | aborted c => Text.applied "Aborted" (r.showCause c)
  | succeeded => "Succeeded"
  | failed c => Text.applied "Failed" (r.showCause c)

end State

end Latch

structure Latch where
  hooks : Hooks := {}
  state : Latch.State := .idle
  deriving DecidableEq, Inhabited

def Latch.display (r : Register) (latch : Latch) : String :=
  Text.braced "AbstractCallback" [("state", latch.state.display r)]

end OneShot
