import OneShot.Scenario.Scene

/-!
# Assembly

Faults and sinks are made from their specifications, inner parts before
outer ones and the first of two before the second.
-/

namespace OneShot.Scenario

open Play

def FaultSpec.make : FaultSpec → Play Fault
  | message text => pure (.message text)
  | report text => pure (.report text)
  | reportOf text source => do return .reportOf text (← source.make)
  | transparent inner => do return .transparent (← inner.make)
  | cause id => do return (← Play.cause id).toFault

/-- A closure of `owner` that reacts as the table says. -/
def hookUp (owner : String) (on : Reactions) (label : String) : Play Closure :=
  closure owner label (on.lookup label)

def newLatch (hooks : Hooks) : Play Nat := do
  let (id, store) := (← store).addLatch hooks
  setStore store
  return id

def newGate : Play Nat := do
  let (id, store) := (← store).addGate
  setStore store
  return id

namespace SinkSpec

def adapt (owner : String) (on : Reactions) : Adapter → Play Part
  | .everyHook => do
      let aborted ← hookUp owner on "aborted"
      let succeeded ← hookUp owner on "succeeded"
      let failed ← hookUp owner on "failed"
      let completed ← hookUp owner on "completed"
      let id ← newLatch (Hooks.full succeeded aborted failed completed)
      return ⟨.latch id, .latch id⟩
  | .onCompletion => do
      let complete ← hookUp owner on "complete"
      return ⟨.latch (← newLatch (Hooks.onCompletion complete)), .none⟩
  | .pair => do
      let success ← hookUp owner on "success"
      let failure ← hookUp owner on "failure"
      return ⟨.pair success failure, .none⟩
  | .abortable => do
      let success ← hookUp owner on "success"
      let abort ← hookUp owner on "abort"
      let failure ← hookUp owner on "failure"
      return ⟨.latch (← newLatch (Hooks.abortable success abort failure)), .none⟩
  | .endings => do
      let success ← hookUp owner on "success"
      let failure ← hookUp owner on "failure"
      let completed ← hookUp owner on "completed"
      return ⟨.latch (← newLatch (Hooks.endings success failure completed)), .none⟩
  | .full => do
      let success ← hookUp owner on "success"
      let abort ← hookUp owner on "abort"
      let failure ← hookUp owner on "failure"
      let completed ← hookUp owner on "completed"
      let id ← newLatch (Hooks.full success abort failure completed)
      return ⟨.latch id, .none⟩

def make : SinkSpec → Play Part
  | ignore => pure ⟨.ignore, .none⟩
  | gate => do
      let id ← newGate
      return ⟨.gate id, .gate id⟩
  | silent => do
      let id ← newLatch Hooks.silent
      return ⟨.latch id, .latch id⟩
  | adapted adapter owner on => adapt owner on adapter
  | before owner on inner => do
      let part ← inner.make
      return ⟨.before (← hookUp owner on "run") part.sink, .none⟩
  | after owner on inner => do
      let part ← inner.make
      return ⟨.after part.sink (← hookUp owner on "run"), .none⟩
  | plain inner => do return ⟨.plain (← inner.make).sink, .none⟩
  | wrapped inner => do return ⟨.wrapped (← inner.make).sink, .none⟩
  | unwrapped inner => do return ⟨(← inner.make).sink, .none⟩
  | both first second => do
      let one ← first.make
      let other ← second.make
      return ⟨.both one.sink other.sink, .none⟩
  | shared name => do return ⟨(← part name).sink, .none⟩
  | named name spec => do
      let part ← spec.make
      enterSink name part
      return part

end SinkSpec

end OneShot.Scenario
