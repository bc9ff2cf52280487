import OneShot.Completion.Hook

/-!
# Sinks

A sink is whatever takes the signals of a piece of work: nothing at all,
a latch, a gate, the cursor of a body, a pair of closures, or a sink
made of others. Latches, gates and bodies are shared, so a sink refers
to them by number.
-/

namespace OneShot

inductive Sink
  /-- Ignores every signal. -/
  | ignore
  | latch (id : Nat)
  | gate (id : Nat)
  /-- Acknowledges the chunks of a body, or fails it. -/
  | cursor (body : Nat)
  /-- Keeps no state: each ending calls one of two closures. -/
  | pair (success failure : Closure)
  /-- Passes endings on and knows of no aborts, which it takes for failures. -/
  | plain (inner : Sink)
  /-- Passes every signal on. -/
  | wrapped (inner : Sink)
  | both (first second : Sink)
  /-- Runs a closure before each ending it passes on. -/
  | before (closure : Closure) (inner : Sink)
  /-- Runs a closure after each ending it passes on. -/
  | after (inner : Sink) (closure : Closure)
  deriving DecidableEq, Inhabited

end OneShot
