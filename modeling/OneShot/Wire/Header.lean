import OneShot.Wire.Octets
import OneShot.Wire.Registry
import OneShot.Text.Display

/-!
# Frame headers

Nine octets precede every payload: the payload's length in three, the
type, the flags, and the stream in four. A longer length loses its high
octet when written.
-/

namespace OneShot.Wire

structure Header where
  length : UInt32
  type : UInt8
  flags : UInt8
  stream : UInt32
  deriving DecidableEq, Inhabited

namespace Header

def parse? : List UInt8 → Option Header
  | l₀ :: l₁ :: l₂ :: type :: flags :: s₀ :: s₁ :: s₂ :: s₃ :: _ =>
      some ⟨word 0 l₀ l₁ l₂, type, flags, clearReserved (word s₀ s₁ s₂ s₃)⟩
  | _ => none

def encode (h : Header) : List UInt8 :=
  (octets h.length).drop 1 ++ [h.type, h.flags] ++ octets (clearReserved h.stream)

@[simp] theorem length_encode (h : Header) : h.encode.length = headerLength := rfl

/-- Appends the header to `buffer`. -/
def write (h : Header) (buffer : List UInt8) : List UInt8 := buffer ++ h.encode

/-- The length of the frame, header and payload. -/
def frameLength (h : Header) : Nat := headerLength + h.length.toNat

def display (h : Header) : String :=
  Text.braced "H2FrameHeader"
    [("length", toString h.length), ("frame_type", toString h.type),
      ("flags", toString h.flags), ("stream_id", toString h.stream)]

end Header

end OneShot.Wire
