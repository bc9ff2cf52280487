/-!
# Registered numbers

The frame types and error codes of the protocol in the order of their
numbers, and the fixed sizes of its frames.
-/

namespace OneShot.Wire

inductive FrameType
  | data | headers | priority | rstStream | settings
  | pushPromise | ping | goaway | windowUpdate | continuation
  deriving DecidableEq

def FrameType.all : List FrameType :=
  [.data, .headers, .priority, .rstStream, .settings,
    .pushPromise, .ping, .goaway, .windowUpdate, .continuation]

def FrameType.code : FrameType → UInt8
  | data => 0x0
  | headers => 0x1
  | priority => 0x2
  | rstStream => 0x3
  | settings => 0x4
  | pushPromise => 0x5
  | ping => 0x6
  | goaway => 0x7
  | windowUpdate => 0x8
  | continuation => 0x9

inductive ErrorCode
  | noError | protocolError | internalError | flowControlError | settingsTimeout
  | streamClosed | frameSizeError | refusedStream | cancel | compressionError
  | connectError | enhanceYourCalm | inadequateSecurity | http11Required
  deriving DecidableEq

def ErrorCode.all : List ErrorCode :=
  [.noError, .protocolError, .internalError, .flowControlError, .settingsTimeout,
    .streamClosed, .frameSizeError, .refusedStream, .cancel, .compressionError,
    .connectError, .enhanceYourCalm, .inadequateSecurity, .http11Required]

def ErrorCode.code : ErrorCode → UInt32
  | noError => 0x0
  | protocolError => 0x1
  | internalError => 0x2
  | flowControlError => 0x3
  | settingsTimeout => 0x4
  | streamClosed => 0x5
  | frameSizeError => 0x6
  | refusedStream => 0x7
  | cancel => 0x8
  | compressionError => 0x9
  | connectError => 0xa
  | enhanceYourCalm => 0xb
  | inadequateSecurity => 0xc
  | http11Required => 0xd

def headerLength : Nat := 9

/-- The length of the payload of a window update. -/
def deltaLength : Nat := 4

/-- The largest payload a peer may send before it is told otherwise. -/
def initialMaxFrameSize : UInt32 := 16384

end OneShot.Wire
