import OneShot.Wire.Header
import OneShot.Refusal

/-!
# Window updates

A window update grants a stream, or with stream 0 the whole connection,
a number of further octets. Writing checks the stream first and then the
delta; a refused update writes nothing.
-/

namespace OneShot.Wire

structure WindowUpdate where
  stream : UInt32
  delta : UInt32
  deriving DecidableEq

namespace WindowUpdate

def ofStream (u : WindowUpdate) : Bool := u.stream != 0

def ofSession (u : WindowUpdate) : Bool := u.stream == 0

def header (u : WindowUpdate) : Header :=
  ⟨UInt32.ofNat deltaLength, FrameType.windowUpdate.code, 0, u.stream⟩

def encode (u : WindowUpdate) : List UInt8 := u.header.encode ++ octets u.delta

@[simp] theorem length_encode (u : WindowUpdate) :
    u.encode.length = headerLength + deltaLength := rfl

/-- The frame of a window update. -/
def frame (u : WindowUpdate) : Except Refusal (List UInt8) :=
  if maxWord31 < u.stream then .error (.reservedStream u.stream)
  else if maxWord31 < u.delta then .error (.deltaTooLarge u.delta)
  else .ok u.encode

/-- Appends the frame to `buffer` and tells how many octets it took. -/
def write (u : WindowUpdate) (buffer : List UInt8) : Except Refusal Nat × List UInt8 :=
  match u.frame with
  | .error refusal => (.error refusal, buffer)
  | .ok octets => (.ok octets.length, buffer ++ octets)

/-- Writes several updates to one buffer, going on after refusals. -/
def writeAll : List WindowUpdate → List UInt8 → List (Except Refusal Nat) × List UInt8
  | [], buffer => ([], buffer)
  | u :: us, buffer =>
      let (answer, buffer) := u.write buffer
      let (answers, buffer) := writeAll us buffer
      (answer :: answers, buffer)

def display (u : WindowUpdate) : String :=
  Text.braced "WindowUpdateFrame"
    [("stream_id", toString u.stream), ("window_delta", toString u.delta)]

end WindowUpdate

end OneShot.Wire
