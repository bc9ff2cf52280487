import OneShot.Body.Exchange

/-!
# Delivering signals

Endings and aborts are delivered to a sink by working through it from
left to right. An abort answers true if it took effect: if some latch
stored it, or if some sink that knows of no aborts was failed by it.
-/

namespace OneShot

open Course

namespace Latch

def callAll (id : Nat) : List Hook → Course Unit
  | [] => pure ()
  | hook :: hooks => do
      call (.hook id hook)
      callAll id hooks

/-- Both abort hooks run, whether or not the first one panics, and the
state is published before a panic goes on. An ending that came meanwhile
completes the latch here. -/
def aborting (id : Nat) (cause : Cause) : Course Bool := do
  let first ← attempt (call (.hook id (.aborted cause)))
  let second ← attempt (call (.hook id (.failed cause)))
  if ← touch (.publish id) then
    call (.hook id (.completed (some cause)))
  done (first.and second)
  pure true

def suppressing (keeper : Cause) : Option Cause → Course Unit
  | none => pure ()
  | some late => touch (.suppress keeper late)

/-- True if the signal is an abort and was stored. -/
def deliver (id : Nat) (signal : Signal) : Course Bool := do
  match ← touch (.receive id signal) with
  | .call hooks =>
      callAll id hooks
      pure false
  | .suppress keeper late hooks =>
      suppressing keeper late
      callAll id hooks
      pure false
  | .abort cause => aborting id cause

end Latch

namespace Sink

def finish (ending : Ending) : Sink → Course Unit
  | ignore => pure ()
  | latch id => discard (Latch.deliver id (.finish ending))
  | gate id => touch (.settle id ending)
  | cursor body =>
      match ending with
      | .success => Body.acknowledging body
      | .failure cause => discard (Body.failing body cause)
  | pair success failure =>
      match ending with
      | .success => call (.closure ⟨success, .nothing⟩)
      | .failure cause => call (.closure ⟨failure, .cause cause⟩)
  | plain inner | wrapped inner => inner.finish ending
  | both first second => do
      first.finish ending
      second.finish ending
  | before closure inner => do
      call (.closure ⟨closure, .nothing⟩)
      inner.finish ending
  | after inner closure => do
      inner.finish ending
      call (.closure ⟨closure, .nothing⟩)

/-- The abort of a sink that keeps no account of aborts. -/
def failInstead (sink : Sink) (cause : Cause) : Course Bool := do
  sink.finish (.failure cause)
  pure true

def abort (cause : Cause) : Sink → Course Bool
  | ignore => pure false
  | latch id => Latch.deliver id (.abort cause)
  | gate id => failInstead (gate id) cause
  | cursor body => failInstead (cursor body) cause
  | pair success failure => failInstead (pair success failure) cause
  | plain inner => failInstead (plain inner) cause
  | wrapped inner => inner.abort cause
  | both first second => do
      let one ← first.abort cause
      let other ← second.abort cause
      pure (one || other)
  | before _ inner => inner.abort cause
  | after inner _ => inner.abort cause

/-- Only an abort can answer true. -/
def deliver (sink : Sink) : Signal → Course Bool
  | .finish ending => do
      sink.finish ending
      pure false
  | .abort cause => sink.abort cause

end Sink

end OneShot
