import OneShot.Wire.WindowUpdate

/-!
# The frame reader

The reader takes the stream in slices of any size. A header or a delta
that is not yet whole waits in cells, with a count of the cells filled;
payloads of other types are passed over and only counted. What the
reader finds it gives out as notices, in order.
-/

namespace OneShot.Wire

/-- What is wrong with a frame. -/
inductive Flaw
  | frameLength
  | windowUpdateFrame
  deriving DecidableEq

def Flaw.reason : Flaw → String
  | frameLength => "invalid_frame_length"
  | windowUpdateFrame => "invalid_window_update_frame"

inductive Notice
  | windowUpdate (update : WindowUpdate)
  | skipped (header : Header)
  | streamFailure (stream : UInt32) (code : ErrorCode) (flaw : Flaw)
  | connectionFailure (code : ErrorCode) (flaw : Flaw)
  deriving DecidableEq

/-- Where in the stream of frames the reader stands. -/
inductive Phase
  | header
  | update (header : Header)
  | skip (header : Header) (remaining : Nat)
  | failed
  deriving DecidableEq

structure Reader where
  maxFrameSize : UInt32
  phase : Phase := .header
  headerCells : List UInt8 := List.replicate headerLength 0
  deltaCells : List UInt8 := List.replicate deltaLength 0
  filled : Nat := 0
  deriving DecidableEq

/-- The cells with the octets of `input` laid over them from place
`filled` on, as far as there is room. -/
def overlay (cells : List UInt8) (filled : Nat) (input : List UInt8) : List UInt8 :=
  let fresh := input.take (cells.length - filled)
  cells.take filled ++ fresh ++ cells.drop (filled + fresh.length)

/-- The number of octets of `input` that fit. -/
def room (cells : List UInt8) (filled : Nat) (input : List UInt8) : Nat :=
  (input.take (cells.length - filled)).length

theorem room_eq (cells : List UInt8) (filled : Nat) (input : List UInt8) :
    room cells filled input = min (cells.length - filled) input.length :=
  List.length_take

@[simp] theorem length_overlay {cells : List UInt8} {filled : Nat} (input : List UInt8)
    (h : filled ≤ cells.length) : (overlay cells filled input).length = cells.length := by
  simp only [overlay, List.length_append, List.length_take, List.length_drop]
  omega

/-- What came of some input: the reader after it, the notices given out
and the number of octets taken. -/
structure Progress where
  reader : Reader
  notices : List Notice := []
  taken : Nat := 0
  deriving DecidableEq

namespace Reader

/-- A reader that has read nothing and accepts payloads of up to
`maxFrameSize` octets. -/
def start (maxFrameSize : UInt32) : Reader := { maxFrameSize }

def isFailed (r : Reader) : Bool := r.phase == .failed

/-- Gives up a frame begun and forgives a connection failure. The cells
keep their octets; no count says they are filled. -/
def reset (r : Reader) : Reader := { r with phase := .header, filled := 0 }

def giveUp (r : Reader) (code : ErrorCode) (flaw : Flaw) : Reader × List Notice :=
  ({ r with phase := .failed }, [.connectionFailure code flaw])

/-- Acts on a whole header. -/
def openFrame (r : Reader) (h : Header) : Reader × List Notice :=
  if r.maxFrameSize < h.length then r.giveUp .frameSizeError .frameLength
  else if h.type = FrameType.windowUpdate.code then
    if h.length.toNat = deltaLength then ({ r with phase := .update h }, [])
    else r.giveUp .frameSizeError .windowUpdateFrame
  else if h.length = 0 then (r, [.skipped h])
  else ({ r with phase := .skip h h.length.toNat }, [])

/-- The delta that the cells hold. -/
def delta (r : Reader) : UInt32 :=
  match r.deltaCells with
  | [a, b, c, d] => clearReserved (word a b c d)
  | _ => 0

/-- Acts on a whole delta under the header `h`. -/
def closeUpdate (r : Reader) (h : Header) : Reader × List Notice :=
  if r.delta = 0 then
    if h.stream = 0 then r.giveUp .protocolError .windowUpdateFrame
    else (r, [.streamFailure h.stream .protocolError .windowUpdateFrame])
  else (r, [.windowUpdate ⟨h.stream, r.delta⟩])

def turnHeader (r : Reader) (input : List UInt8) : Progress :=
  let n := room r.headerCells r.filled input
  let r := { r with
    headerCells := overlay r.headerCells r.filled input
    filled := r.filled + n }
  if r.filled = headerLength then
    let r := { r with filled := 0 }
    match Header.parse? r.headerCells with
    | some h =>
        let (r, notices) := r.openFrame h
        ⟨r, notices, n⟩
    | none => ⟨r, [], n⟩
  else ⟨r, [], n⟩

def turnUpdate (r : Reader) (h : Header) (input : List UInt8) : Progress :=
  let n := room r.deltaCells r.filled input
  let r := { r with
    deltaCells := overlay r.deltaCells r.filled input
    filled := r.filled + n }
  if r.filled = deltaLength then
    let (r, notices) := { r with filled := 0, phase := .header }.closeUpdate h
    ⟨r, notices, n⟩
  else ⟨r, [], n⟩

def turnSkip (r : Reader) (h : Header) (remaining : Nat) (input : List UInt8) : Progress :=
  let n := (input.take remaining).length
  if n = remaining then ⟨{ r with phase := .header }, [.skipped h], n⟩
  else ⟨{ r with phase := .skip h (remaining - n) }, [], n⟩

/-- Takes from the front of `input` what the phase calls for. -/
def turn (r : Reader) (input : List UInt8) : Progress :=
  match r.phase with
  | .failed => ⟨r, [], 0⟩
  | .header => r.turnHeader input
  | .update h => r.turnUpdate h input
  | .skip h remaining => r.turnSkip h remaining input

/-- Turns until the input is used up or the reader has failed. -/
def feed (r : Reader) (input : List UInt8) : Progress :=
  match input with
  | [] => ⟨r, [], 0⟩
  | octet :: more =>
      if r.isFailed then ⟨r, [], 0⟩
      else
        match r.turn (octet :: more) with
        | ⟨next, notices, taken⟩ =>
            if _ : 0 < taken then
              let rest := next.feed ((octet :: more).drop taken)
              ⟨rest.reader, notices ++ rest.notices, taken + rest.taken⟩
            else ⟨next, notices, taken⟩
termination_by input.length
decreasing_by simp only [List.length_drop, List.length_cons]; omega

@[simp] theorem feed_nil (r : Reader) : r.feed [] = ⟨r, [], 0⟩ := by
  rw [feed]

/-- A reader that has failed takes nothing until it is reset. -/
theorem feed_of_isFailed {r : Reader} (h : r.isFailed = true) (input : List UInt8) :
    r.feed input = ⟨r, [], 0⟩ := by
  cases input with
  | nil => rw [feed]
  | cons octet more => rw [feed, if_pos h]

/-- Feeds slices in turn; a slice is offered whole however much of the
one before was taken. -/
def feedAll (r : Reader) : List (List UInt8) → Reader × List Notice × List Nat
  | [] => (r, [], [])
  | slice :: slices =>
      let t := r.feed slice
      let (r, notices, counts) := t.reader.feedAll slices
      (r, t.notices ++ notices, t.taken :: counts)

end Reader

end OneShot.Wire
