import OneShot.Completion.Latch
import OneShot.Completion.Gate
import OneShot.Body.Basic

/-!
# The store

All that calls share: the register of causes, the latches, the gates and
the bodies. An access is one short section in which a single caller
looks at the store and changes it; between two accesses others may come
in. A number that names nothing answers as an ignoring sink would.

To have a cause suppressed is to search the lists, one after the other, and
then to add to one of them. No section spans all this; it is taken as one
step here, which it is unless two callers suppress at the same time.
-/

namespace OneShot

structure Store where
  register : Register := {}
  latches : List Latch := []
  gates : List Gate := []
  bodies : List Body := []
  deriving DecidableEq, Inhabited

/-- The answer to an offer: accepted, with the listener to be notified, or
rejected, with the cause to fail the chunk's sink with. -/
inductive Admission
  | accepted (listener : Option Closure)
  | rejected (cause : Cause)
  deriving DecidableEq, Inhabited

/-- What a failing body leaves to its caller: the sinks to fail, and the
listener to be notified after them. -/
structure Fallout where
  sinks : List Sink
  listener : Option Closure
  deriving DecidableEq, Inhabited

inductive Access
  | receive (latch : Nat) (signal : Signal)
  | publish (latch : Nat)
  | suppress (keeper late : Cause)
  | settle (gate : Nat) (ending : Ending)
  | offer (body : Nat) (chunk : Chunk)
  | next (body : Nat)
  | acknowledge (body : Nat)
  | close (body : Nat)
  | fail (body : Nat) (cause : Cause)
  | listen (body : Nat) (listener : Closure)
  deriving DecidableEq

@[reducible] def Access.Reply : Access → Type
  | receive _ _ => Latch.Duty
  | publish _ => Bool
  | suppress _ _ => Unit
  | settle _ _ => Unit
  | offer _ _ => Admission
  | next _ => Except Refusal (Option (List UInt8))
  | acknowledge _ => Option Sink
  | close _ => Option Closure
  | fail _ _ => Option Fallout
  | listen _ _ => Unit

namespace Store

def addLatch (s : Store) (hooks : Hooks) : Nat × Store :=
  (s.latches.length, { s with latches := s.latches ++ [{ hooks }] })

def addGate (s : Store) : Nat × Store :=
  (s.gates.length, { s with gates := s.gates ++ [{}] })

def addBody (s : Store) (b : Body) : Nat × Store :=
  (s.bodies.length, { s with bodies := s.bodies ++ [b] })

def addCause (s : Store) (wrapped : Fault) : Cause × Store :=
  let (c, register) := s.register.create wrapped
  (c, { s with register })

/-- The search for an association and the recording, as one step. -/
def suppress (s : Store) (keeper late : Cause) : Store :=
  { s with register := s.register.suppress keeper late }

def putBody (s : Store) (id : Nat) (b : Body) : Store :=
  { s with bodies := s.bodies.set id b }

def receive (s : Store) (id : Nat) (signal : Signal) : Latch.Duty × Store :=
  match s.latches[id]? with
  | none => (.call [], s)
  | some latch =>
      let (state, duty) := latch.state.receive signal
      (duty, { s with latches := s.latches.set id { latch with state } })

def publish (s : Store) (id : Nat) : Bool × Store :=
  match s.latches[id]? with
  | none => (false, s)
  | some latch =>
      let (state, completing) := latch.state.publish
      (completing, { s with latches := s.latches.set id { latch with state } })

def settle (s : Store) (id : Nat) (ending : Ending) : Store :=
  match s.gates[id]? with
  | none => s
  | some gate =>
      let s := { s with gates := s.gates.set id (gate.settle ending) }
      match gate.late? ending with
      | none => s
      | some (keeper, late) => s.suppress keeper late

/-- A rejected chunk fails with the body's failure, or, if the body was
only closed, with a cause made for the occasion. -/
def offer (s : Store) (id : Nat) (chunk : Chunk) : Admission × Store :=
  match s.bodies[id]? with
  | none => (.accepted none, s)
  | some b =>
      if b.accepts then (.accepted b.listener, s.putBody id (b.offer chunk))
      else
        match b.failure with
        | some cause => (.rejected cause, s)
        | none =>
            let (cause, s) := s.addCause (.message "deferred content closed")
            (.rejected cause, s)

def next (s : Store) (id : Nat) : Except Refusal (Option (List UInt8)) × Store :=
  match s.bodies[id]? with
  | none => (.ok none, s)
  | some b =>
      let (answer, b) := b.next
      (answer, s.putBody id b)

def acknowledge (s : Store) (id : Nat) : Option Sink × Store :=
  match s.bodies[id]? with
  | none => (none, s)
  | some b =>
      let (sink, b) := b.acknowledge
      (sink, s.putBody id b)

/-- Only the first close notifies the listener. -/
def close (s : Store) (id : Nat) : Option Closure × Store :=
  match s.bodies[id]? with
  | none => (none, s)
  | some b => if b.closed then (none, s) else (b.listener, s.putBody id b.close)

/-- The first failure stays; the cause of a later one is suppressed by it. -/
def fail (s : Store) (id : Nat) (cause : Cause) : Option Fallout × Store :=
  match s.bodies[id]? with
  | none => (none, s)
  | some b =>
      match b.failure with
      | some first => (none, s.suppress first cause)
      | none => (some ⟨b.pending.map Chunk.sink, b.listener⟩, s.putBody id (b.fail cause))

def listen (s : Store) (id : Nat) (listener : Closure) : Store :=
  match s.bodies[id]? with
  | none => s
  | some b => s.putBody id (b.listen listener)

def perform (s : Store) : (a : Access) → a.Reply × Store
  | .receive id signal => s.receive id signal
  | .publish id => s.publish id
  | .suppress keeper late => ((), s.suppress keeper late)
  | .settle id ending => ((), s.settle id ending)
  | .offer id chunk => s.offer id chunk
  | .next id => s.next id
  | .acknowledge id => s.acknowledge id
  | .close id => s.close id
  | .fail id cause => s.fail id cause
  | .listen id listener => ((), s.listen id listener)

end Store

end OneShot
