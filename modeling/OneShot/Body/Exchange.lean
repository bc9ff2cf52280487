import OneShot.Course

/-!
# The exchange over a body

The producer opens a body, offers chunks, and closes or fails it; the
cursor takes the chunks and acknowledges them. Each of these first
changes the body and only then calls out, to the sinks of the chunks and
to the listener.
-/

namespace OneShot.Body

open Course

/-- A new body with room for so many chunks. The room bounds nothing later,
but asking for more than can be reserved panics. -/
def opening (capacity : Nat) : Outcome Body :=
  if reservable capacity then .returned {} else .panicked "capacity overflow"

@[simp] theorem opening_defaultCapacity : opening defaultCapacity = .returned {} := by
  simp [opening]

def notify (id : Nat) : Option Closure → Course Unit
  | none => pure ()
  | some listener => call (.listener id listener)

/-- True if the chunk was accepted. -/
def offering (id : Nat) (chunk : Chunk) : Course Bool := do
  match ← touch (.offer id chunk) with
  | .accepted listener =>
      notify id listener
      pure true
  | .rejected cause =>
      call (.chunk id chunk.sink (.failure cause))
      pure false

def closing (id : Nat) : Course Unit := do
  notify id (← touch (.close id))

/-- Fails each of the sinks in turn, until one of them panics. -/
def failAll (id : Nat) (cause : Cause) : List Sink → Course Unit
  | [] => pure ()
  | sink :: sinks => do
      call (.chunk id sink (.failure cause))
      failAll id cause sinks

/-- True if this failure is the one that the body now holds. -/
def failing (id : Nat) (cause : Cause) : Course Bool := do
  match ← touch (.fail id cause) with
  | none => pure false
  | some fallout =>
      failAll id cause fallout.sinks
      notify id fallout.listener
      pure true

def acknowledging (id : Nat) : Course Unit := do
  match ← touch (.acknowledge id) with
  | none => pure ()
  | some sink => call (.chunk id sink .success)

end OneShot.Body
