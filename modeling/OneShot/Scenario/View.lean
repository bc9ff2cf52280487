import OneShot.Deadline
import OneShot.Scenario.Scene

/-!
# Looking at a scene

What a scenario can ask of causes, sinks and bodies without changing
them, and what a caller who waits would be answered by now.
-/

namespace OneShot.Scenario

open Play

def showFault (desk : Desk) (f : Fault) : Shown :=
  match f.toCause? with
  | some c => .cause (desk.nameOf c)
  | none => .other f.display

def contentOf (desk : Desk) : Fault → Content
  | .message _ => .message
  | .report _ | .reportOf _ _ => .report
  | .transparent _ => .transparent
  | .cause id wrapped => .cause (desk.nameOf ⟨id, wrapped⟩)

namespace Scene

/-- The names of what the cause has suppressed. -/
def suppressed (scene : Scene) (c : Cause) : List String :=
  (scene.store.register.suppressed c).map scene.desk.nameOf

def describe (scene : Scene) (c : Cause) : Description where
  display := c.display
  detail := scene.store.register.showCause c
  wrapped := c.wrapped.display
  content := contentOf scene.desk c.wrapped
  chain := c.toFault.chain.map (showFault scene.desk)
  suppressed := scene.suppressed c

/-- The body of that number. -/
def body (scene : Scene) (id : Nat) : Body := scene.store.bodies[id]?.getD {}

def info (scene : Scene) (id : Nat) : BodyInfo :=
  let b := scene.body id
  { closed := b.closed
    outstanding := b.outstanding
    length := b.length?
    hasMore := b.hasMore
    detail := b.display scene.store.register
    cursor := b.displayCursor }

/-- The state of a sink that can be looked at. -/
def state? (scene : Scene) : View → Option Answer
  | .none => none
  | .latch id => scene.store.latches[id]?.map fun latch =>
      .latch latch.state.isAborted latch.state.isCompleted (latch.display scene.store.register)
  | .gate id => scene.store.gates[id]?.map fun gate => .gate gate.isDone

end Scene

/-- What a script can wait for. -/
inductive Target
  | gate (id : Nat)
  | body (id : Nat)
  deriving DecidableEq

def target (name : String) : Play Target := do
  match (← desk).sinks.lookup name with
  | some ⟨_, .gate id⟩ => return .gate id
  | _ => return .body (← bodyId name)

namespace Target

/-- The answer to one who waits without a limit; none while it has to wait. -/
def passed? (s : Store) : Target → Option (Except Refusal Unit)
  | gate id => (s.gates[id]?.getD {}).pass?
  | body id => (s.bodies[id]?.getD {}).flush?

/-- The outcome for one who waits no longer than a limit. A scene has no clock of its own; what is
played begins when the clock is started. -/
def within (s : Store) (limit : Duration) : Target → Outcome (Except Refusal Unit)
  | gate id => (s.gates[id]?.getD {}).passWithin .origin limit
  | body id => (s.bodies[id]?.getD {}).flushWithin .origin limit

end Target

def released (desk : Desk) : Except Refusal Unit → Answer
  | .ok () => .ok
  | .error refusal => desk.refused refusal

/-- The answer that a waiting caller has by now, if it is released. -/
def Scene.waiting? (scene : Scene) (t : Target) : Option Answer :=
  (t.passed? scene.store).map (released scene.desk)

end OneShot.Scenario
