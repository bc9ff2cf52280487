import OneShot.Completion.Sink
import OneShot.Refusal

/-!
# Bodies

A body is produced chunk by chunk while it is being sent. Chunks wait in
the queue until the cursor yields them, and are in flight until they are
acknowledged, oldest first. The count of outstanding chunks is what a
flush waits for. A failure empties both queues and is final.
-/

namespace OneShot

structure Chunk where
  octets : List UInt8
  sink : Sink
  deriving DecidableEq, Inhabited

structure Body where
  queued : List Chunk := []
  inFlight : List Chunk := []
  outstanding : Nat := 0
  closed : Bool := false
  failure : Option Cause := none
  listener : Option Closure := none
  deriving DecidableEq, Inhabited

namespace Body

/-- The number of chunks for which room is reserved if none is asked for. -/
def defaultCapacity : Nat := 16

/-- The room that one chunk in the queue takes, in octets. -/
def chunkRoom : Nat := 48

/-- The most room that can be reserved in one piece: the greatest multiple
of eight octets below two to the power 63. -/
def maxRoom : Nat := 9223372036854775800

def reservable (capacity : Nat) : Bool := capacity * chunkRoom ≤ maxRoom

@[simp] theorem reservable_defaultCapacity : reservable defaultCapacity = true := by
  decide

theorem reservable_of_le {m n : Nat} (h : m ≤ n) (hn : reservable n = true) :
    reservable m = true :=
  decide_eq_true (Nat.le_trans (Nat.mul_le_mul_right _ h) (of_decide_eq_true hn))

def accepts (b : Body) : Bool := !b.closed && b.failure.isNone

def offer (b : Body) (chunk : Chunk) : Body :=
  { b with queued := b.queued ++ [chunk], outstanding := b.outstanding + 1 }

def listen (b : Body) (listener : Closure) : Body :=
  { b with listener := some listener }

def close (b : Body) : Body := { b with closed := true }

/-- Everything not yet acknowledged is given up. -/
def fail (b : Body) (cause : Cause) : Body :=
  { b with queued := [], inFlight := [], outstanding := 0, closed := true, failure := some cause }

/-- The chunks not yet acknowledged, in the order they were offered. -/
def pending (b : Body) : List Chunk := b.inFlight ++ b.queued

/-- Takes the acknowledgement of the oldest chunk in flight, and gives
the sink to be told of it. -/
def acknowledge (b : Body) : Option Sink × Body :=
  match b.inFlight with
  | [] => (none, b)
  | chunk :: rest =>
      (some chunk.sink, { b with inFlight := rest, outstanding := b.outstanding - 1 })

/-- Yields the next chunk, or nothing if none has been offered yet. -/
def next (b : Body) : Except Refusal (Option (List UInt8)) × Body :=
  match b.failure, b.queued with
  | some cause, _ => (.error (.failed cause), b)
  | none, chunk :: rest =>
      (.ok (some chunk.octets), { b with queued := rest, inFlight := b.inFlight ++ [chunk] })
  | none, [] => (if b.closed then .error .exhausted else .ok none, b)

@[simp] theorem pending_offer (b : Body) (chunk : Chunk) :
    (b.offer chunk).pending = b.pending ++ [chunk] := by
  simp [pending, offer]

@[simp] theorem pending_fail (b : Body) (cause : Cause) : (b.fail cause).pending = [] := rfl

@[simp] theorem pending_close (b : Body) : b.close.pending = b.pending := rfl

/-- Yielding moves a chunk from the queue into flight and loses none. -/
@[simp] theorem pending_next (b : Body) : b.next.2.pending = b.pending := by
  unfold next
  split
  · rfl
  · rename_i hq
    simp [pending, hq]
  · rfl

/-- Acknowledging lets go of the first chunk pending. -/
theorem pending_acknowledge {b : Body} {chunk : Chunk} {rest : List Chunk}
    (h : b.inFlight = chunk :: rest) :
    b.pending = chunk :: b.acknowledge.2.pending := by
  simp [pending, acknowledge, h]

def hasMore (b : Body) : Bool := !(b.closed && b.queued.isEmpty)

/-- A body never knows its length beforehand. -/
def length? (_ : Body) : Option Nat := none

/-- The answer to a flush; none while it has to wait. -/
def flush? (b : Body) : Option (Except Refusal Unit) :=
  match b.failure with
  | some cause => some (.error (.failed cause))
  | none => if b.outstanding = 0 then some (.ok ()) else none

end Body

end OneShot
