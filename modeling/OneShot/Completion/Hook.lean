import OneShot.Completion.Signal

/-!
# Hooks and closures

A hook is a point at which a latch calls out. What is called is a
closure, known here by its number alone. Each hook of a latch has a
handler: it is ignored, it runs a closure, or it tells a closure what
the hook was told.
-/

namespace OneShot

abbrev Closure := Nat

inductive Hook
  | aborted (cause : Cause)
  | succeeded
  | failed (cause : Cause)
  | completed (cause : Option Cause)
  deriving DecidableEq, Inhabited

/-- What a closure is handed. -/
inductive Argument
  | nothing
  | cause (cause : Cause)
  | outcome (cause : Option Cause)
  deriving DecidableEq, Inhabited

def Hook.argument : Hook → Argument
  | aborted cause | failed cause => .cause cause
  | succeeded => .nothing
  | completed cause => .outcome cause

structure ClosureCall where
  closure : Closure
  argument : Argument
  deriving DecidableEq

inductive Handler
  | ignore
  | run (closure : Closure)
  | tell (closure : Closure)
  deriving DecidableEq, Inhabited

def Handler.call? : Handler → Argument → Option ClosureCall
  | ignore, _ => none
  | run closure, _ => some ⟨closure, .nothing⟩
  | tell closure, argument => some ⟨closure, argument⟩

/-- The handlers of a latch. -/
structure Hooks where
  onAborted : Handler := .ignore
  onSucceeded : Handler := .ignore
  onFailed : Handler := .ignore
  onCompleted : Handler := .ignore
  deriving DecidableEq, Inhabited

namespace Hooks

def silent : Hooks := {}

/-- Runs the closure on completion, however the work ended. -/
def onCompletion (complete : Closure) : Hooks :=
  { onCompleted := .run complete }

def full (success abort failure completed : Closure) : Hooks :=
  { onAborted := .tell abort
    onSucceeded := .tell success
    onFailed := .tell failure
    onCompleted := .tell completed }

def abortable (success abort failure : Closure) : Hooks :=
  { onAborted := .tell abort, onSucceeded := .tell success, onFailed := .tell failure }

def endings (success failure completed : Closure) : Hooks :=
  { onSucceeded := .tell success, onFailed := .tell failure, onCompleted := .tell completed }

def handler (hooks : Hooks) : Hook → Handler
  | .aborted _ => hooks.onAborted
  | .succeeded => hooks.onSucceeded
  | .failed _ => hooks.onFailed
  | .completed _ => hooks.onCompleted

/-- The closure that a hook calls, if it has one. -/
def call? (hooks : Hooks) (hook : Hook) : Option ClosureCall :=
  (hooks.handler hook).call? hook.argument

@[simp] theorem call?_silent (hook : Hook) : silent.call? hook = none := by
  cases hook <;> rfl

end Hooks

end OneShot
